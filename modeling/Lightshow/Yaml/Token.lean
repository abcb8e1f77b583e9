/-
YAML text as tokens.

Tokens make the structure of a YAML text explicit: block collections, which the text shows by
indentation alone, get a token at their start and at their end, and a key gets one in front of it.
That something was a key is known only at the colon behind it, so the place where a key could have
begun is remembered, and its tokens are put in there.

* `Token.ofText?` -- the tokens of a text; `none` if it is no YAML.
-/
import Lightshow.Yaml.Scalar

namespace Lightshow.Yaml

/-- The smallest parts of a YAML text. -/
inductive Token where
  | version (major minor : Nat)
  | tagAlias (handle : List Char) (start : List Char)
  | documentStart
  | documentEnd
  | blockSequence
  | blockMapping
  | blockEnd
  | openSequence
  | closeSequence
  | openMapping
  | closeMapping
  | item
  | comma
  | key
  | value
  | alias (name : List Char)
  | anchor (name : List Char)
  | tag (handle suffix : List Char)
  | scalar (style : Style) (text : List Char)
  deriving DecidableEq, Repr

/-! ### Tags and directives -/

namespace Cursor

/-- Characters of a tag; some of them only where the tag is written out in full. -/
def isTagChar (full : Bool) (c : Char) : Bool :=
  isNameChar c || ";/?:@&=+$.%!~*'()".toList.contains c || full && ",[]".toList.contains c

/-- Bytes of a tag in which `%` and two hexadecimal digits stand for one. -/
def tagBytes? : List Char → Option (List UInt8)
  | [] => some []
  | '%' :: a :: b :: rest => do
    return (← Numeral.number? 16 [a, b]).toUInt8 :: (← tagBytes? rest)
  | '%' :: _ => none
  | c :: rest => do return c.toNat.toUInt8 :: (← tagBytes? rest)

/-- The characters that part of a tag stands for. -/
def tagText? (written : List Char) : Option (List Char) := do
  let text ← String.fromUTF8? ⟨(← tagBytes? written).toArray⟩
  return text.toList

/-- The handle of a tag: `!`, or a name between two of them. -/
def tagHandle? (c : Cursor) : Option (List Char × Cursor) :=
  if c.sees '!' then
    let (name, c) := c.skip.span isNameChar
    if c.sees '!' then some ('!' :: name ++ ['!'], c.skip) else some ('!' :: name, c)
  else none

/-- The tag that starts here: its handle and what stands behind it. -/
def tag? (inFlow : Bool) (c : Cursor) : Option (Token × Cursor) := do
  let (handle, suffix, c) ←
    if (c.skip.sees '<') then do
      let (written, c) := c.skip.skip.span (isTagChar true)
      if written.isEmpty || !c.sees '>' then none
      pure ([], ← tagText? written, c.skip)
    else do
      let (handle, after) ← c.tagHandle?
      let (written, c) := after.span (isTagChar false)
      let suffix ← tagText? written
      if 1 < handle.length ∧ handle.getLast? = some '!' then
        if written.isEmpty then none
        pure (handle, suffix, c)
      else
        let suffix := handle.drop 1 ++ suffix
        pure (if suffix.isEmpty then ([], ['!'], c) else (['!'], suffix, c))
  if endsWord c.rest || inFlow && c.sees ',' then return (.tag handle suffix, c)
  none

/-- The number of at most nine digits that stands here. -/
def versionNumber? (c : Cursor) : Option (Nat × Cursor) :=
  let (digits, c) := c.span Char.isDigit
  if digits.isEmpty || 9 < digits.length then none
  else (Numeral.number? 10 digits).map fun n => (n, c)

/-- A version and its two numbers. -/
def versionDirective? (c : Cursor) : Option (Token × Cursor) := do
  let (major, c) ← c.skipBlanks.versionNumber?
  if !c.sees '.' then none
  let (minor, c) ← c.skip.versionNumber?
  return (.version major minor, c)

/-- A handle and what it stands for. -/
def tagDirective? (c : Cursor) : Option (Token × Cursor) := do
  let (handle, c) ← c.skipBlanks.tagHandle?
  if handle ≠ ['!'] ∧ handle.getLast? ≠ some '!' then none
  if !c.next?.any isBlank then none
  let (written, c) := c.skipBlanks.span (isTagChar true)
  if written.isEmpty || !endsWord c.rest then none
  return (.tagAlias handle (← tagText? written), c)

/-- The directive that starts here. -/
def directive? (c : Cursor) : Option (Token × Cursor) := do
  let (name, c) := c.skip.span isNameChar
  if !endsWord c.rest then none
  let (token, c) ←
    if name = "YAML".toList then c.versionDirective?
    else if name = "TAG".toList then c.tagDirective?
    else none
  return (token, ← c.endLine?)

/-- The name behind the mark of an anchor or alias. -/
def anchorName? (c : Cursor) : Option (List Char × Cursor) :=
  let (name, c) := c.skip.span isNameChar
  if !name.isEmpty && (endsWord c.rest || c.next?.any ("?:,]\x7d%@\x60".toList.contains ·)) then
    some (name, c)
  else none

end Cursor

/-! ### The lexer -/

/-- A place where a key may have begun. -/
structure KeyPlace where
  /-- How many tokens come before it. -/
  index : Nat
  line : Nat
  column : Nat
  /-- Nothing but a key can stand there. -/
  required : Bool

/-- The text that is left, and the tokens before it. -/
structure Lexer where
  cursor : Cursor
  tokens : Array Token
  /-- Columns of the open block collections, innermost first. -/
  blocks : List Nat
  /-- Whether a key may begin here. -/
  keyAllowed : Bool
  /-- The last place where a key may have begun. -/
  keyPlace : Option KeyPlace
  /-- Such places of the collections around the open brackets and braces, innermost first. -/
  outerKeys : List (Option KeyPlace)

namespace Lexer

/-- Whether brackets or braces are open. -/
def inFlow (l : Lexer) : Bool := !l.outerKeys.isEmpty

/-- Column of the innermost block collection. -/
def indent (l : Lexer) : Int :=
  match l.blocks with
  | [] => -1
  | column :: _ => column

/-- The lexer with a further token. -/
def push (l : Lexer) (t : Token) : Lexer := { l with tokens := l.tokens.push t }

/-- The lexer with a token, past some characters. -/
def pushPast (n : Nat) (l : Lexer) (t : Token) : Lexer :=
  { l.push t with cursor := l.cursor.skipMany n }

/-- The lexer with a token that ends at a cursor. -/
def pushTo (l : Lexer) (t : Token) (c : Cursor) : Lexer := { l.push t with cursor := c }

/-- Closes the block collections of which not even the column is left. -/
def closeBlocks (keeps : Nat → Bool) (l : Lexer) : Lexer :=
  if l.inFlow then l
  else
    let closed := l.blocks.takeWhile fun column => !keeps column
    { l with
      tokens := l.tokens ++ (closed.map fun _ => Token.blockEnd).toArray
      blocks := l.blocks.drop closed.length }

/-- Opens a block collection at a column, unless one is open there; its token goes to `index`. -/
def openBlock (column index : Nat) (t : Token) (l : Lexer) : Lexer :=
  if !l.inFlow && l.indent < column then
    { l with
      tokens := l.tokens.insertIdxIfInBounds index t
      blocks := column :: l.blocks }
  else l

/-- Gives up the place where a key may have begun. -/
def dropKey? (l : Lexer) : Option Lexer :=
  if l.keyPlace.any (·.required) then none else some { l with keyPlace := none }

/-- Remembers that a key may begin here. -/
def markKey? (l : Lexer) : Option Lexer :=
  if l.keyAllowed then do
    let c := l.cursor
    let place : KeyPlace := ⟨l.tokens.size, c.line, c.column, !l.inFlow && l.indent = c.column⟩
    return { ← l.dropKey? with keyPlace := some place }
  else some l

/-- Longest key that is found by its colon. -/
def longestKey : Nat := 1024

/-- The place of the key whose colon stands here: on the same line, and not too far away. -/
def keyBefore? (l : Lexer) : Option (Option KeyPlace) :=
  match l.keyPlace with
  | none => some none
  | some k =>
    if k.line = l.cursor.line ∧ l.cursor.column ≤ k.column + longestKey then some (some k)
    else if k.required then none
    else some none

/-- Past blanks, comments and line breaks; where tabs do not count as blanks, they stay. -/
def skipGap : (fuel : Nat) → Lexer → Lexer
  | 0, l => l
  | fuel + 1, l =>
    let c := l.cursor
    let c := if c.column = 0 ∧ c.sees byteOrderMark then c.skip else c
    let c := (c.span fun x => x = ' ' || x = '\t' && (l.inFlow || !l.keyAllowed)).2.skipComment
    match c.next? with
    | none => { l with cursor := c }
    | some x =>
      if isBreak x then
        skipGap fuel { l with cursor := c.skip, keyAllowed := l.keyAllowed || !l.inFlow }
      else { l with cursor := c }

/-- Outside all collections, ready for a directive or a document. -/
def leaveAll? (l : Lexer) : Option Lexer := do
  return { ← (l.closeBlocks fun _ => false).dropKey? with keyAllowed := false }

/-- An opening bracket or brace. -/
def opening? (t : Token) (l : Lexer) : Option Lexer := do
  let l ← l.markKey?
  return { l with
    keyPlace := none, outerKeys := l.keyPlace :: l.outerKeys, keyAllowed := true }.pushPast 1 t

/-- A closing bracket or brace. -/
def closing? (t : Token) (l : Lexer) : Option Lexer := do
  let l ← l.dropKey?
  let l := match l.outerKeys with
    | [] => l
    | k :: outer => { l with keyPlace := k, outerKeys := outer }
  return { l with keyAllowed := false }.pushPast 1 t

/-- A mark that starts an item or a key of a block collection, where one may begin. -/
def blockMark? (collection t : Token) (keyAllowed : Bool) (l : Lexer) : Option Lexer := do
  if !l.inFlow && !l.keyAllowed then none
  let l ← (l.openBlock l.cursor.column l.tokens.size collection).dropKey?
  return { l with keyAllowed }.pushPast 1 t

/-- A colon: the end of a key, if one has begun, or the start of a value without one. -/
def colon? (l : Lexer) : Option Lexer := do
  match ← l.keyBefore? with
  | some k =>
    let l := { l with tokens := l.tokens.insertIdxIfInBounds k.index .key }
    let l := l.openBlock k.column k.index .blockMapping
    return { l with keyPlace := none, keyAllowed := false }.pushPast 1 .value
  | none =>
    if !l.inFlow && !l.keyAllowed then none
    let l := l.openBlock l.cursor.column l.tokens.size .blockMapping
    return { l with keyAllowed := !l.inFlow }.pushPast 1 .value

/-- A token that can be a key, or begin one. -/
def nodePart? (read : Cursor → Option (Token × Cursor)) (l : Lexer) : Option Lexer := do
  let l ← l.markKey?
  let (t, c) ← read l.cursor
  return { l with keyAllowed := false }.pushTo t c

/-- A block scalar; a key may follow it. -/
def blockScalar? (style : Style) (l : Lexer) : Option Lexer := do
  let l ← l.dropKey?
  let (text, c) ← l.cursor.block? (style = .literal) l.indent
  return { l with keyAllowed := true }.pushTo (.scalar style text) c

/-- A plain scalar; if it ends with its line, a key may follow it. -/
def plainScalar? (l : Lexer) : Option Lexer := do
  let l ← l.markKey?
  let (text, crossed, c) ← l.cursor.plain? l.inFlow (l.indent + 1)
  return { l with keyAllowed := crossed }.pushTo (.scalar .plain text) c

/-- Whether a plain scalar may start with a text. -/
def startsPlain (inFlow : Bool) (first : Char) (rest : List Char) : Bool :=
  !("-?:,[]\x7b\x7d#&*!|>'\"%@\x60".toList.contains first || isGap first)
    || first = '-' && !(rest.head?.any isBlank)
    || !inFlow && (first = '?' || first = ':') && !Cursor.endsWord rest

/-- The next token of a lexer whose blanks are skipped and whose blocks are closed. -/
def token? (first : Char) (rest : List Char) (l : Lexer) : Option Lexer :=
  let c := l.cursor
  let standsAlone := Cursor.endsWord rest
  if c.column = 0 ∧ first = '%' then do
    let l ← l.leaveAll?
    let (t, c) ← l.cursor.directive?
    return l.pushTo t c
  else if c.atMark '-' then do return (← l.leaveAll?).pushPast 3 .documentStart
  else if c.atMark '.' then do return (← l.leaveAll?).pushPast 3 .documentEnd
  else if first = '[' then l.opening? .openSequence
  else if first = '{' then l.opening? .openMapping
  else if first = ']' then l.closing? .closeSequence
  else if first = '}' then l.closing? .closeMapping
  else if first = ',' then do return { ← l.dropKey? with keyAllowed := true }.pushPast 1 .comma
  else if first = '-' ∧ standsAlone then l.blockMark? .blockSequence .item true
  else if first = '?' ∧ (l.inFlow ∨ standsAlone) then l.blockMark? .blockMapping .key (!l.inFlow)
  else if first = ':' ∧ (l.inFlow ∨ standsAlone) then l.colon?
  else if first = '*' then l.nodePart? fun c => do
    let (name, c) ← c.anchorName?
    return (.alias name, c)
  else if first = '&' then l.nodePart? fun c => do
    let (name, c) ← c.anchorName?
    return (.anchor name, c)
  else if first = '!' then l.nodePart? fun c => c.tag? l.inFlow
  else if first = '|' ∧ !l.inFlow then l.blockScalar? .literal
  else if first = '>' ∧ !l.inFlow then l.blockScalar? .folded
  else if first = '\'' then l.nodePart? fun c => do
    let (text, c) ← c.quoted? '\''
    return (.scalar .singleQuoted text, c)
  else if first = '"' then l.nodePart? fun c => do
    let (text, c) ← c.quoted? '"'
    return (.scalar .doubleQuoted text, c)
  else if startsPlain l.inFlow first rest then l.plainScalar?
  else none

/-- Reads tokens up to the end of the text; every round takes at least one character. -/
def readAll : (fuel : Nat) → Lexer → Option (Array Token)
  | 0, _ => none
  | fuel + 1, l =>
    let l := l.skipGap (l.cursor.rest.length + 1)
    match l.cursor.rest with
    | [] => do return (← l.leaveAll?).tokens
    | first :: rest => do
      let l ← (l.closeBlocks (· ≤ l.cursor.column)).token? first rest
      readAll fuel l

end Lexer

/-- The tokens of a text. -/
def Token.ofText? (text : String) : Option (List Token) := do
  let c ← Cursor.ofText? text.toList
  let tokens ← Lexer.readAll (c.rest.length + 1) ⟨c, #[], [], true, none, []⟩
  return tokens.toList

end Lightshow.Yaml
