/-
What YAML nodes mean to a reader that knows what it looks for.

Every scalar is a text.  A number has to be written plainly, a choice is the text of its name or a
local tag of that name without content, and nothing at all is an empty record.  Fields that nobody
asks for are ignored, but a field that is asked for may stand only once.

* `text?`, `optionalText?`, `natural?`, `choice?`, `fields?` -- the readers;
* `fieldOr?` -- a field of a record, or its default.
-/
import Lightshow.Yaml.Node

namespace Lightshow.Yaml.Document

/-- The text of a scalar. -/
def text? (d : Document) (n : Node) : Option String :=
  match d.followed n with
  | .scalar _ _ _ text => some text
  | _ => none

/-- The plain texts that stand for nothing, besides the empty one. -/
def nullWords : List String := ["null", "Null", "NULL", "~"]

/-- The tag of what stands for nothing. -/
def nullTag : String := "tag:yaml.org,2002:null"

/-- The tag of integers. -/
def intTag : String := "tag:yaml.org,2002:int"

/-- The text of a scalar, or nothing. -/
def optionalText? (d : Document) (n : Node) : Option (Option String) :=
  match d.followed n with
  | .scalar _ tag style text =>
    if style ≠ .plain then some (some text)
    else if tag = some nullTag then (if nullWords.contains text then some none else none)
    else if tag.isNone && (text.isEmpty || nullWords.contains text) then some none
    else some (some text)
  | _ => none

/-- The number that digits of a base spell, if it has 64 bits. -/
def naturalOf? (base : Nat) (digits : List Char) : Option UInt64 :=
  if digits.isEmpty then none
  else ((Numeral.number? base digits).filter (· < 1 <<< 64)).map Nat.toUInt64

/-- The natural that a plain text spells: decimal without a zero in front, or behind `0x`, `0o` or
`0b` in that base; a plus sign may stand before it. -/
def naturalText? (text : String) : Option UInt64 :=
  let digits := match text.toList with
    | '+' :: rest => rest
    | cs => cs
  match digits with
  | '0' :: 'x' :: rest => naturalOf? 16 rest
  | '0' :: 'o' :: rest => naturalOf? 8 rest
  | '0' :: 'b' :: rest => naturalOf? 2 rest
  | ['0'] => some 0
  | '0' :: _ => none
  | cs => naturalOf? 10 cs

/-- The natural of a scalar, which is plain, or a literal block with the tag of integers. -/
def natural? (d : Document) (n : Node) : Option UInt64 :=
  match d.followed n with
  | .scalar _ tag style text =>
    if style = .plain ∨ style = .literal ∧ tag = some intTag then naturalText? text else none
  | _ => none

/-- The name in a local tag. -/
def localName? (tag : String) : Option String :=
  match tag.toList with
  | ['!'] => some "!"
  | '!' :: name => some (String.ofList name)
  | _ => none

/-- One of some names. -/
def choice? (d : Document) (names : List String) (n : Node) : Option String :=
  match d.followed n with
  | .scalar _ tag style text =>
    match tag.bind localName? with
    | some name =>
      if style = .plain ∧ (text.isEmpty ∨ nullWords.contains text) ∧ names.contains name then
        some name
      else none
    | none => if names.contains text then some text else none
  | _ => none

/-- The fields of a record. -/
def fields? (d : Document) (n : Node) : Option (List (String × Node)) :=
  match d.followed n with
  | .mapping _ _ pairs => pairs.mapM fun p => do return (← d.text? p.1, p.2)
  | .scalar _ _ style text => if style = .plain ∧ text.isEmpty then some [] else none
  | _ => none

/-- A field of a record, or its default if it is left out. -/
def fieldOr? {α : Type} (name : String) (read : Node → Option α) (default : α)
    (fields : List (String × Node)) : Option α :=
  match fields.filter (·.1 = name) with
  | [] => some default
  | [(_, n)] => read n
  | _ => none

end Lightshow.Yaml.Document
