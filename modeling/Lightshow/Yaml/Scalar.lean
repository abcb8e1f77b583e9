/-
YAML scalars.

A scalar is a text, written plainly, between quotes, or as an indented block.  Lines of plain and
quoted scalars are folded: one line break becomes a space, further ones stay.  A block keeps its
breaks (`|`) or folds them between lines of the same kind (`>`).

* `Cursor.plain?`, `Cursor.quoted?`, `Cursor.block?` -- the scalar that starts at a place.
-/
import Lightshow.Number.Numeral
import Lightshow.Yaml.Cursor

namespace Lightshow.Yaml

/-- How a scalar is written. -/
inductive Style where
  | plain
  | singleQuoted
  | doubleQuoted
  | literal
  | folded
  deriving DecidableEq, Repr

namespace Cursor

/-! ### Plain scalars -/

/-- What ends a plain scalar inside brackets or braces. -/
def isFlowMark (c : Char) : Bool := c = ',' || c = '[' || c = ']' || c = '{' || c = '}'

/-- The word of a plain scalar that a text starts with; a colon before a mark of a flow
collection is refused. -/
def plainWord? (inFlow : Bool) : List Char → Option (List Char)
  | [] => some []
  | x :: rest =>
    if isGap x then some []
    else if inFlow && x = ':' && (rest.head?.any fun y => isFlowMark y || y = '?') then none
    else if x = ':' && endsWord rest || inFlow && isFlowMark x then some []
    else (plainWord? inFlow rest).map (x :: ·)

/-- Reads words as long as the scalar goes on.  `before` is what the gap before the next word
leaves, and `crossed` tells whether that gap has a line break; it is also told of the last gap,
which leaves nothing. -/
def readPlain (inFlow : Bool) (indent : Int) (crossed : Bool) (before : List Char) :
    (fuel : Nat) → Cursor → Option (List Char × Bool × Cursor)
  | 0, _ => none
  | fuel + 1, c =>
    if c.atDocumentMark || c.sees '#' then some ([], crossed, c)
    else do
      let word ← plainWord? inFlow c.rest
      if word.isEmpty then return ([], crossed, c)
      let c := c.skipMany word.length
      let text := before ++ word
      if !c.next?.any isGap then return (text, false, c)
      let (gap, c) ← c.gap? indent
      let crossed := !gap.breaks.isEmpty
      if !inFlow && c.column < indent then return (text, crossed, c)
      let (more, crossed, c) ← readPlain inFlow indent crossed gap.folded fuel c
      return (text ++ more, crossed, c)

/-- The plain scalar that starts here, and whether a line was ended behind it. -/
def plain? (inFlow : Bool) (indent : Int) (c : Cursor) : Option (List Char × Bool × Cursor) :=
  c.readPlain inFlow indent false [] (c.rest.length + 1)

/-! ### Quoted scalars -/

/-- The character that an escape of one letter stands for. -/
def escapeOf? : Char → Option Char
  | '0' => some '\x00'
  | 'a' => some '\x07'
  | 'b' => some '\x08'
  | 't' => some '\t'
  | '\t' => some '\t'
  | 'n' => some '\n'
  | 'v' => some '\x0b'
  | 'f' => some '\x0c'
  | 'r' => some '\r'
  | 'e' => some '\x1b'
  | ' ' => some ' '
  | '"' => some '"'
  | '/' => some '/'
  | '\\' => some '\\'
  | 'N' => some '\u0085'
  | '_' => some '\u00a0'
  | 'L' => some '\u2028'
  | 'P' => some '\u2029'
  | _ => none

/-- How many hexadecimal digits follow an escape of one letter. -/
def escapeLength? : Char → Option Nat
  | 'x' => some 2
  | 'u' => some 4
  | 'U' => some 8
  | _ => none

/-- The character with a number; the numbers of halves of a pair have none. -/
def charOf? (n : Nat) : Option Char := if n.isValidChar then some (Char.ofNat n) else none

/-- The character that an escape stands for, and the cursor past it; `c` is past the backslash. -/
def escape? (c : Cursor) : Option (Char × Cursor) := do
  let x ← c.next?
  match escapeLength? x with
  | none => return (← escapeOf? x, c.skip)
  | some n =>
    let digits := (c.rest.drop 1).take n
    if digits.length < n then none
    return (← charOf? (← Numeral.number? 16 digits), c.skipMany (n + 1))

/-- Reads a quoted scalar up to its closing quote. -/
def readQuoted (quote : Char) : (fuel : Nat) → Cursor → Option (List Char × Cursor)
  | 0, _ => none
  | fuel + 1, c =>
    if c.atDocumentMark then none
    else match c.rest with
    | [] => none
    | x :: rest =>
      if x = quote then
        if quote = '\'' ∧ rest.head? = some quote then do
          let (text, c) ← readQuoted quote fuel (c.skipMany 2)
          return (quote :: text, c)
        else some ([], c.skip)
      else if x = '\\' ∧ quote = '"' then do
        if rest.head?.any isBreak then
          -- an escaped break leaves nothing, and the breaks after it stay as they are
          let (gap, c) ← c.skip.gap? 0
          let (text, c) ← readQuoted quote fuel c
          return (gap.breaks.drop 1 ++ text, c)
        else
          let (y, c) ← c.skip.escape?
          let (text, c) ← readQuoted quote fuel c
          return (y :: text, c)
      else if isGap x then do
        let (gap, c) ← c.gap? 0
        let (text, c) ← readQuoted quote fuel c
        return (gap.folded ++ text, c)
      else do
        let (text, c) ← readQuoted quote fuel c.skip
        return (x :: text, c)

/-- The quoted scalar whose opening quote stands here. -/
def quoted? (quote : Char) (c : Cursor) : Option (List Char × Cursor) :=
  c.skip.readQuoted quote (c.rest.length + 1)

/-! ### Block scalars -/

/-- What a block keeps of the breaks at its end. -/
inductive Chomp where
  /-- None of them. -/
  | strip
  /-- The first one. -/
  | clip
  /-- All of them. -/
  | keep
  deriving DecidableEq, Repr

/-- The sign that says what is kept. -/
def chomp? (c : Cursor) : Option Chomp × Cursor :=
  if c.sees '+' then (some .keep, c.skip)
  else if c.sees '-' then (some .strip, c.skip)
  else (none, c)

/-- A digit that says how far a block is indented; a zero is refused. -/
def increment? (c : Cursor) : Option (Option Nat × Cursor) :=
  match c.next? with
  | some x =>
    if x = '0' then none
    else if x.isDigit then some (some (x.toNat - 48), c.skip)
    else some (none, c)
  | none => some (none, c)

/-- The two signs behind the mark of a block, in either order. -/
def blockHeader? (c : Cursor) : Option (Chomp × Option Nat × Cursor) := do
  match c.chomp? with
  | (some chomp, c) =>
    let (increment, c) ← c.increment?
    return (chomp, increment, c)
  | (none, c) =>
    match ← c.increment? with
    | (none, c) => return (.clip, none, c)
    | (some n, c) =>
      let (chomp, c) := c.chomp?
      return (chomp.getD .clip, some n, c)

/-- Reads indentation and empty lines; gives the breaks and the largest column reached.  An
`indent` of zero is not known yet, and no tab may stand inside the indentation. -/
def readIndentation (indent : Nat) : (fuel : Nat) → (deepest : Nat) → Cursor →
    Option (List Char × Nat × Cursor)
  | 0, deepest, c => some ([], deepest, c)
  | fuel + 1, deepest, c =>
    let spaces := (c.rest.takeWhile (· = ' ')).length
    let c := c.skipMany (if indent = 0 then spaces else min spaces (indent - c.column))
    let deepest := max deepest c.column
    if (indent = 0 ∨ c.column < indent) ∧ c.sees '\t' then none
    else match c.next? with
    | none => some ([], deepest, c)
    | some x =>
      if isBreak x then do
        let (breaks, deepest, c) ← readIndentation indent fuel deepest c.skip
        return (x :: breaks, deepest, c)
      else some ([], deepest, c)

/-- Reads the lines of a block that is indented to `indent`.  `blank` tells whether the line
before starts with a blank, `ending` is its break and `breaks` the empty lines after it.  At the end
there is the text with what is left of the last breaks. -/
def readBlock (keepsBreaks : Bool) (chomp : Chomp) (indent : Nat) (blank : Bool)
    (ending breaks : List Char) : (fuel : Nat) → Cursor → Option (List Char × Cursor)
  | 0, _ => none
  | fuel + 1, c =>
    if c.column = indent ∧ !c.rest.isEmpty then do
      let startsBlank := c.next?.any isBlank
      let joint :=
        if !keepsBreaks && ending = ['\n'] && !blank && !startsBlank then
          (if breaks.isEmpty then [' '] else [])
        else ending
      let (line, c) := c.span fun _ => true
      let ending' := c.rest.take 1
      let c := c.skip
      let (breaks', _, c) ← c.readIndentation indent (c.rest.length + 1) 0
      let (text, c) ← readBlock keepsBreaks chomp indent startsBlank ending' breaks' fuel c
      return (joint ++ breaks ++ line ++ text, c)
    else
      some ((if chomp = .strip then [] else ending) ++ (if chomp = .keep then breaks else []), c)

/-- The block scalar whose mark stands here, inside a collection at column `outer`. -/
def block? (keepsBreaks : Bool) (outer : Int) (c : Cursor) : Option (List Char × Cursor) := do
  let (chomp, increment, c) ← c.skip.blockHeader?
  let c ← c.endLine?
  let given := match increment with
    | some n => (max outer 0).toNat + n
    | none => 0
  let (breaks, deepest, c) ← c.readIndentation given (c.rest.length + 1) 0
  let indent := if given = 0 then max deepest (max (outer + 1).toNat 1) else given
  c.readBlock keepsBreaks chomp indent false [] breaks (c.rest.length + 1)

end Cursor

end Lightshow.Yaml
