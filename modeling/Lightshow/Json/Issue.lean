/-
What can be wrong with JSON text, and where.

An `Issue` is a cause; `Issue.message` is its wording.  Reading stops at the first issue, and a
`Stop` remembers the text not yet read and how many bytes of it were already looked at, which
`Stop.place` turns into a line and a column: lines are counted from one, and the column is the
number of bytes of that line before the place.
-/
import Lightshow.Json.Value

namespace Lightshow.Json

/-- What stands where something else was expected. -/
inductive Found where
  | null
  | bool (b : Bool)
  | number (n : Number)
  | text (s : String)
  | sequence
  | map

/-- Whether a character is shown by an escape when a string is quoted in a message. -/
def isHidden (c : Char) : Bool :=
  let n := c.toNat
  n < 0x20 || (0x7f ≤ n && n ≤ 0xa0) || n = 0xad || (0x300 ≤ n && n ≤ 0x36f) || n = 0x1680
    || (0x2000 ≤ n && n ≤ 0x200f) || (0x2028 ≤ n && n ≤ 0x202f) || (0x205f ≤ n && n ≤ 0x206f)
    || n = 0x3000 || (0xe000 ≤ n && n ≤ 0xf8ff) || n = 0xfeff || (0xfff0 ≤ n && n ≤ 0xfffb)

/-- A character as it is shown inside a quoted string of a message. -/
def shownChar (c : Char) : List Char :=
  if c = '"' then ['\\', '"']
  else if c = '\\' then ['\\', '\\']
  else if c = '\x00' then ['\\', '0']
  else if c = '\t' then ['\\', 't']
  else if c = '\n' then ['\\', 'n']
  else if c = '\r' then ['\\', 'r']
  else if isHidden c then '\\' :: 'u' :: '{' :: Nat.toDigits 16 c.toNat ++ ['}']
  else [c]

/-- Wording of what was found. -/
def Found.describe : Found → String
  | .null => "null"
  | .bool b => "boolean `" ++ (if b then "true" else "false") ++ "`"
  | .number (.real x) => "floating point `" ++ (Number.real x).write ++ "`"
  | .number n => "integer `" ++ n.write ++ "`"
  | .text s => "string \"" ++ String.ofList (s.toList.flatMap shownChar) ++ "\""
  | .sequence => "sequence"
  | .map => "map"

/-- Names in backquotes, the way a list of choices is worded. -/
def choices : List String → String
  | [] => "there are no variants"
  | [a] => "expected `" ++ a ++ "`"
  | [a, b] => "expected `" ++ a ++ "` or `" ++ b ++ "`"
  | names => "expected one of " ++ ", ".intercalate (names.map fun n => "`" ++ n ++ "`")

/-- A cause for which text is not JSON, or not of the expected shape. -/
inductive Issue where
  | endInList
  | endInObject
  | endInString
  | endInValue
  | colonExpected
  | listCommaOrEndExpected
  | objectCommaOrEndExpected
  | identExpected
  | valueExpected
  | invalidEscape
  | invalidNumber
  | numberOutOfRange
  | keyNotString
  | controlCharacter
  | loneSurrogate
  | hexEscapeEnds
  | trailingComma
  | trailingCharacters
  | tooDeep
  | wrongType (found : Found) (expected : String)
  | wrongValue (found : Found) (expected : String)
  | wrongLength (length : Nat) (expected : String)
  | listTooLong (length : Nat)
  | missingField (name : String)
  | duplicateField (name : String)
  | unknownChoice (name : String) (known : List String)

/-- Wording of an issue. -/
def Issue.message : Issue → String
  | .endInList => "EOF while parsing a list"
  | .endInObject => "EOF while parsing an object"
  | .endInString => "EOF while parsing a string"
  | .endInValue => "EOF while parsing a value"
  | .colonExpected => "expected `:`"
  | .listCommaOrEndExpected => "expected `,` or `]`"
  | .objectCommaOrEndExpected => "expected `,` or `\x7d`"
  | .identExpected => "expected ident"
  | .valueExpected => "expected value"
  | .invalidEscape => "invalid escape"
  | .invalidNumber => "invalid number"
  | .numberOutOfRange => "number out of range"
  | .keyNotString => "key must be a string"
  | .controlCharacter => "control character (\\u0000-\\u001F) found while parsing a string"
  | .loneSurrogate => "lone leading surrogate in hex escape"
  | .hexEscapeEnds => "unexpected end of hex escape"
  | .trailingComma => "trailing comma"
  | .trailingCharacters => "trailing characters"
  | .tooDeep => "recursion limit exceeded"
  | .wrongType found expected => "invalid type: " ++ found.describe ++ ", expected " ++ expected
  | .wrongValue found expected => "invalid value: " ++ found.describe ++ ", expected " ++ expected
  | .wrongLength length expected =>
    "invalid length " ++ toString length ++ ", expected " ++ expected
  | .listTooLong length =>
    "invalid length " ++ toString length ++ ", expected fewer elements in array"
  | .missingField name => "missing field `" ++ name ++ "`"
  | .duplicateField name => "duplicate field `" ++ name ++ "`"
  | .unknownChoice name known => "unknown variant `" ++ name ++ "`, " ++ choices known

/-- The place where reading stopped. -/
structure Stop where
  issue : Issue
  /-- Text that had not been read. -/
  rest : List Char
  /-- Bytes of `rest` that had been looked at. -/
  looked : Nat

/-- An issue with its line and column. -/
structure Fault where
  issue : Issue
  line : Nat
  column : Nat

/-- Wording of an issue with its place. -/
def Fault.message (f : Fault) : String :=
  f.issue.message ++ " at line " ++ toString f.line ++ " column " ++ toString f.column

/-- Number of bytes that encode a text. -/
def byteLength (cs : List Char) : Nat := cs.foldr (fun c n => c.utf8Size + n) 0

/-- Line and column after the first `bytes` bytes of a text. -/
def placeAfter (bytes : Nat) : List Char → Nat × Nat → Nat × Nat
  | [], place => place
  | c :: cs, (line, column) =>
    if bytes = 0 then (line, column)
    else if bytes < c.utf8Size then (line, column + bytes)
    else placeAfter (bytes - c.utf8Size) cs
      (if c = '\n' then (line + 1, 0) else (line, column + c.utf8Size))

/-- The stop as a fault of the whole text. -/
def Stop.inText (s : Stop) (text : List Char) : Fault :=
  let (line, column) := placeAfter (byteLength text - byteLength s.rest + s.looked) text (1, 0)
  ⟨s.issue, line, column⟩

end Lightshow.Json
