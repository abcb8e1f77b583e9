/-
A place in YAML text.

YAML is read character by character, and columns decide what belongs to what.  A `Cursor` is the
text that is left together with its column.  Before reading, the text is checked for characters
that YAML does not allow, and its line breaks are made alike, so that a break is one character.

* `Cursor.ofText?` -- the start of a text, if all its characters are allowed;
* `Cursor.span` -- the longest run of characters of a class;
* `Cursor.readGap` -- blanks and line breaks between words.
-/
namespace Lightshow.Yaml

/-! ### Characters -/

/-- Characters that may stand in YAML text. -/
def isAllowed (c : Char) : Bool :=
  let n := c.toNat
  c = '\t' || c = '\n' || c = '\r' || (0x20 ≤ n && n ≤ 0x7e) || n = 0x85
    || (0xa0 ≤ n && n ≤ 0xd7ff) || (0xe000 ≤ n && n ≤ 0xfffd) || 0x10000 ≤ n

/-- Line breaks; two of them are not made alike with the line feed. -/
def isBreak (c : Char) : Bool := c = '\n' || c = '\u2028' || c = '\u2029'

/-- Space and tab. -/
def isBlank (c : Char) : Bool := c = ' ' || c = '\t'

/-- What separates words. -/
def isGap (c : Char) : Bool := isBlank c || isBreak c

/-- Characters of anchors, tag handles and directives. -/
def isNameChar (c : Char) : Bool := c.isAlphanum || c = '_' || c = '-'

/-- Mark that may stand before a text and at the start of its lines. -/
def byteOrderMark : Char := '\ufeff'

/-- Makes carriage returns, with a line feed or alone, and next-line characters line feeds. -/
def unifyBreaks : List Char → List Char
  | '\r' :: '\n' :: rest => '\n' :: unifyBreaks rest
  | c :: rest => (if c = '\r' || c = '\u0085' then '\n' else c) :: unifyBreaks rest
  | [] => []

/-! ### Cursors -/

/-- Text that is left, with the place where it starts. -/
structure Cursor where
  rest : List Char
  line : Nat
  column : Nat

namespace Cursor

/-- The start of a text, after its byte order mark; `none` if a character is not allowed. -/
def ofText? (text : List Char) : Option Cursor :=
  let body := match text with
    | c :: rest => if c = byteOrderMark then rest else text
    | [] => []
  if body.all isAllowed then some ⟨unifyBreaks body, 0, 0⟩ else none

/-- The next character. -/
def next? (c : Cursor) : Option Char := c.rest.head?

/-- Whether some character comes next. -/
def sees (c : Cursor) (x : Char) : Bool := c.rest.head? = some x

/-- Whether a text starts with something that ends a word; so does the end of the text. -/
def endsWord (cs : List Char) : Bool :=
  match cs with
  | [] => true
  | x :: _ => isGap x

/-- Past the next character. -/
def skip (c : Cursor) : Cursor :=
  match c.rest with
  | [] => c
  | x :: rest => if isBreak x then ⟨rest, c.line + 1, 0⟩ else ⟨rest, c.line, c.column + 1⟩

/-- Past some characters of a line. -/
def skipMany (n : Nat) (c : Cursor) : Cursor := ⟨c.rest.drop n, c.line, c.column + n⟩

/-- The longest run of a class of characters that are no line breaks, and the cursor past it. -/
def span (p : Char → Bool) (c : Cursor) : List Char × Cursor :=
  let run := c.rest.takeWhile fun x => p x && !isBreak x
  (run, c.skipMany run.length)

/-- Past blanks. -/
def skipBlanks (c : Cursor) : Cursor := (c.span isBlank).2

/-- Past a comment, if one begins here. -/
def skipComment (c : Cursor) : Cursor := if c.sees '#' then (c.span fun _ => true).2 else c

/-- Past the rest of a line on which only blanks and a comment are left, and past its break. -/
def endLine? (c : Cursor) : Option Cursor :=
  let c := c.skipBlanks.skipComment
  match c.rest with
  | [] => some c
  | x :: _ => if isBreak x then some c.skip else none

/-- Whether a line starts here with three of a character that stand alone. -/
def atMark (x : Char) (c : Cursor) : Bool :=
  c.column = 0 && c.rest.take 3 = [x, x, x] && endsWord (c.rest.drop 3)

/-- Whether a document starts or ends here. -/
def atDocumentMark (c : Cursor) : Bool := c.atMark '-' || c.atMark '.'

/-- Blanks and line breaks between two words. -/
structure Gap where
  /-- The blanks before the first break. -/
  blanks : List Char
  /-- The breaks, with the blanks around them left out. -/
  breaks : List Char

/-- What a gap leaves of itself in a scalar: a single line feed becomes a space, and the first of
several disappears. -/
def Gap.folded (g : Gap) : List Char :=
  match g.breaks with
  | [] => g.blanks
  | ['\n'] => [' ']
  | '\n' :: more => more
  | breaks => breaks

/-- Reads blanks and breaks; a tab before the column `indent` of a further line is refused. -/
def readGap (indent : Int) : (fuel : Nat) → Gap → Cursor → Option (Gap × Cursor)
  | 0, g, c => some (g, c)
  | fuel + 1, g, c =>
    match c.next? with
    | none => some (g, c)
    | some x =>
      if isBreak x then readGap indent fuel { g with breaks := g.breaks ++ [x] } c.skip
      else if !isBlank x then some (g, c)
      else if g.breaks.isEmpty then readGap indent fuel { g with blanks := g.blanks ++ [x] } c.skip
      else if x = '\t' ∧ c.column < indent then none
      else readGap indent fuel g c.skip

/-- The gap that starts here. -/
def gap? (indent : Int) (c : Cursor) : Option (Gap × Cursor) :=
  c.readGap indent c.rest.length ⟨[], []⟩

end Cursor

end Lightshow.Yaml
