/-
JSON values and their compact text.

A number keeps the three kinds that its text can denote: a natural of 64 bits, a negative integer
of 64 bits, and everything else as a double.  The fields of an object are ordered by name, each
name once, and a later value takes the place of an earlier one.

* `Value.write` -- the compact text, without blanks;
* `Value.natural?`, `Value.integer?` -- the readings that commands are made of.
-/
import Lightshow.Number.Layout

namespace Lightshow.Json

/-- A JSON number: integers are kept exactly as far as 64 bits reach. -/
inductive Number where
  | natural (n : UInt64)
  | negative (n : Int64)
  | real (x : Float)

/-- Text of a number. -/
def Number.write : Number → String
  | .natural n => toString n.toNat
  | .negative n => toString n.toInt
  | .real x => Layout.json.write x

/-- A JSON value. -/
inductive Value where
  | null
  | bool (b : Bool)
  | number (n : Number)
  | text (s : String)
  | list (items : List Value)
  | object (fields : List (String × Value))

instance : Inhabited Value := ⟨.null⟩

/-- Hexadecimal digit of a number below sixteen, in lower case. -/
def hexDigit (n : Nat) : Char := Nat.digitChar n

/-- A character as it stands inside a quoted string. -/
def escaped (c : Char) : List Char :=
  if c = '"' then ['\\', '"']
  else if c = '\\' then ['\\', '\\']
  else if c = '\x08' then ['\\', 'b']
  else if c = '\x0c' then ['\\', 'f']
  else if c = '\n' then ['\\', 'n']
  else if c = '\r' then ['\\', 'r']
  else if c = '\t' then ['\\', 't']
  else if c.toNat < 0x20 then
    ['\\', 'u', '0', '0', hexDigit (c.toNat / 16), hexDigit (c.toNat % 16)]
  else [c]

/-- A string in double quotes. -/
def quoted (s : String) : String := String.ofList ('"' :: s.toList.flatMap escaped ++ ['"'])

mutual

/-- Compact text of a value. -/
def Value.write : Value → String
  | .null => "null"
  | .bool b => if b then "true" else "false"
  | .number n => n.write
  | .text s => quoted s
  | .list items => "[" ++ Value.writeItems items ++ "]"
  | .object fields => "\x7b" ++ Value.writeFields fields ++ "\x7d"

/-- Items of a list, separated by commas. -/
def Value.writeItems : List Value → String
  | [] => ""
  | [v] => v.write
  | v :: rest => v.write ++ "," ++ Value.writeItems rest

/-- Fields of an object, separated by commas. -/
def Value.writeFields : List (String × Value) → String
  | [] => ""
  | [(k, v)] => quoted k ++ ":" ++ v.write
  | (k, v) :: rest => quoted k ++ ":" ++ v.write ++ "," ++ Value.writeFields rest

end

/-- Puts a field in its place, instead of an earlier one of that name. -/
def putField (name : String) (v : Value) : List (String × Value) → List (String × Value)
  | [] => [(name, v)]
  | (k, w) :: rest =>
    if name = k then (name, v) :: rest
    else if name < k then (name, v) :: (k, w) :: rest
    else (k, w) :: putField name v rest

namespace Value

/-- The field of an object with a given name. -/
def field? (name : String) : Value → Option Value
  | .object fields => (fields.find? (·.1 = name)).map (·.2)
  | _ => none

/-- The items of a list. -/
def items? : Value → Option (List Value)
  | .list items => some items
  | _ => none

/-- The text of a string. -/
def text? : Value → Option String
  | .text s => some s
  | _ => none

/-- The value as a natural of 64 bits. -/
def natural? : Value → Option UInt64
  | .number (.natural n) => some n
  | _ => none

/-- The value as an integer of 64 bits. -/
def integer? : Value → Option Int64
  | .number (.natural n) => if n.toNat < 1 <<< 63 then some (Int64.ofNat n.toNat) else none
  | .number (.negative n) => some n
  | _ => none

end Value

end Lightshow.Json
