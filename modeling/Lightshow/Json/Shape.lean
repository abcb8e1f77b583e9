/-
Shapes of JSON data.

A `Shape` says what a reader looks for: naturals of some bits, one of some names, records of
fields.  `Shape.Data` is the type of what it finds.  A shape reads text, where an issue has a
place, and values, where it has none; both stop at the first issue in the order of the text.

A record may be written as an object, in which unknown fields are passed over and optional ones
may be missing, or as the list of its fields, whose optional tail may be missing.

* `Shape.ofText` -- the data that a text spells;
* `Shape.ofValue` -- the data that a value spells;
* `Shape.toValue` -- a value that spells the data.
-/
import Lightshow.Json.Reader

namespace Lightshow.Json

/-- Whether a field may be left out. -/
inductive Presence where
  /-- It has to be there; but if it may be null, an object may leave it out. -/
  | required
  | optional
  deriving DecidableEq, Repr

mutual

/-- What a reader looks for. -/
inductive Shape where
  | natural (bits : Nat)
  | real
  | boolean
  | text
  /-- Null or something else. -/
  | nullable (shape : Shape)
  /-- One of some names, as a string or as an object of that name and null. -/
  | choice (names : List String)
  | record (name : String) (fields : Fields)

/-- The fields of a record. -/
inductive Fields where
  | nil
  | cons (name : String) (presence : Presence) (shape : Shape) (rest : Fields)

end

mutual

/-- What a reader finds. -/
@[reducible] def Shape.Data : Shape → Type
  | .natural bits => Fin (Nat.pow 2 bits)
  | .real => Float
  | .boolean => Bool
  | .text => String
  | .nullable s => Option s.Data
  | .choice names => { name : String // name ∈ names }
  | .record _ fields => fields.Data

/-- What a reader finds in the fields of a record. -/
@[reducible] def Fields.Data : Fields → Type
  | .nil => Unit
  | .cons _ .required s rest => s.Data × rest.Data
  | .cons _ .optional s rest => Option s.Data × rest.Data

end

/-- The fields of a record that were found so far. -/
@[reducible] def Fields.Draft : Fields → Type
  | .nil => Unit
  | .cons _ _ s rest => Option s.Data × rest.Draft

/-- No field was found. -/
def Fields.blank : (fields : Fields) → fields.Draft
  | .nil => ()
  | .cons _ _ _ rest => (none, rest.blank)

/-- Number of fields. -/
def Fields.count : Fields → Nat
  | .nil => 0
  | .cons _ _ _ rest => rest.count + 1

/-- What is expected, as it stands in a message. -/
def Shape.expected : Shape → String
  | .natural bits => "u" ++ toString bits
  | .real => "f64"
  | .boolean => "a boolean"
  | .text => "a string"
  | .nullable s => s.expected
  | .choice _ => "string or map"
  | .record name _ => "struct " ++ name

/-- The full list of fields is expected. -/
def Fields.expected (name : String) (fields : Fields) : String :=
  "struct " ++ name ++ " with " ++ toString fields.count
    ++ (if fields.count = 1 then " element" else " elements")

/-! ### Leaves -/

/-- A number as a natural of some bits. -/
def naturalOf (bits : Nat) (n : Number) : Except Issue (Fin (Nat.pow 2 bits)) :=
  match n with
  | .natural k =>
    if h : k.toNat < Nat.pow 2 bits then .ok ⟨k.toNat, h⟩
    else .error (.wrongValue (.number n) (Shape.natural bits).expected)
  | .negative _ => .error (.wrongValue (.number n) (Shape.natural bits).expected)
  | .real _ => .error (.wrongType (.number n) (Shape.natural bits).expected)

/-- A number as a double. -/
def realOf : Number → Float
  | .natural n => n.toFloat
  | .negative n => n.toFloat
  | .real x => x

/-- One of some names. -/
def nameOf (names : List String) (name : String) : Except Issue { n : String // n ∈ names } :=
  if h : name ∈ names then .ok ⟨name, h⟩ else .error (.unknownChoice name names)

/-- What was found as data of a shape, unless that is a record. -/
def Shape.ofFound : (s : Shape) → Found → Except Issue s.Data
  | .natural bits, .number n => naturalOf bits n
  | .real, .number n => .ok (realOf n)
  | .boolean, .bool b => .ok b
  | .text, .text t => .ok t
  | .nullable _, .null => .ok none
  | .nullable s, f => do return some (← s.ofFound f)
  | .choice names, .text t => nameOf names t
  | s, f => .error (.wrongType f s.expected)

/-- A value as something found. -/
def Value.found : Value → Found
  | .null => .null
  | .bool b => .bool b
  | .number n => .number n
  | .text s => .text s
  | .list _ => .sequence
  | .object _ => .map

/-- A field that is left out of an object. -/
def Shape.absent? : (s : Shape) → Option s.Data
  | .nullable _ => some none
  | _ => none

/-- The data of the fields that were found. -/
def Fields.finish : (fields : Fields) → fields.Draft → Except Issue fields.Data
  | .nil, _ => .ok ()
  | .cons name .required s rest, (found, more) =>
    match found <|> s.absent? with
    | none => .error (.missingField name)
    | some data => do return (data, ← rest.finish more)
  | .cons _ .optional _ rest, (found, more) => do return (found, ← rest.finish more)

/-! ### Reading values -/

/-- Null and nothing else. -/
def nullOnly (f : Found) : Except Issue Unit :=
  match f with
  | .null => .ok ()
  | f => .error (.wrongType f "unit")

mutual

/-- The data that a value spells. -/
def Shape.ofValue : (s : Shape) → Value → Except Issue s.Data
  | .nullable s, v =>
    match v with
    | .null => .ok none
    | v => do return some (← s.ofValue v)
  | .choice names, .object [(name, v)] => do
    let choice ← nameOf names name
    nullOnly v.found
    return choice
  | .choice _, .object _ => .error (.wrongValue .map "map with a single key")
  | .record _ fields, .object entries => do
    let draft ← entries.foldlM (fun draft entry => fields.take entry.1 entry.2 draft) fields.blank
    fields.finish draft
  | .record name fields, .list items => do
    let (data, rest) ← fields.ofItems (fields.expected name) 0 items
    if rest.isEmpty then return data
    throw (.listTooLong items.length)
  | s, v => s.ofFound v.found

/-- The draft with a field; unknown ones are passed over. -/
def Fields.take : (fields : Fields) → String → Value → fields.Draft → Except Issue fields.Draft
  | .nil, _, _, draft => .ok draft
  | .cons known _ s rest, name, v, (found, more) =>
    if known = name then
      match found with
      | some _ => .error (.duplicateField name)
      | none => do return (some (← s.ofValue v), more)
    else do return (found, ← rest.take name v more)

/-- The fields that a list gives, from position `index` on, and the items that are left. -/
def Fields.ofItems : (fields : Fields) → (expected : String) → (index : Nat) → List Value →
    Except Issue (fields.Data × List Value)
  | .nil, _, _, items => .ok ((), items)
  | .cons _ .required _ _, expected, index, [] => .error (.wrongLength index expected)
  | .cons _ .optional _ rest, expected, index, [] => do
    let (more, items) ← rest.ofItems expected (index + 1) []
    return ((none, more), items)
  | .cons _ .required s rest, expected, index, v :: items => do
    let data ← s.ofValue v
    let (more, items) ← rest.ofItems expected (index + 1) items
    return ((data, more), items)
  | .cons _ .optional s rest, expected, index, v :: items => do
    let data ← s.ofValue v
    let (more, items) ← rest.ofItems expected (index + 1) items
    return ((some data, more), items)

end

/-! ### Reading text -/

/-- Reads a value that opens nothing; in front of a list or object it stays. -/
def readFound (cs : List Char) : Except Stop (Found × Rest cs) :=
  match h : skipBlanks cs with
  | [] => stopAt .endInValue [] 0
  | c :: rest =>
    have hc : (c :: rest).length ≤ cs.length := length_le_of_skipBlanks h
    have hr : rest.length < cs.length := length_lt_of_skipBlanks h
    let word (letters : List Char) (f : Found) : Except Stop (Found × Rest cs) := do
      let ⟨last, hl⟩ ← readWord letters rest
      .ok (f, ⟨last, length_le_of_rest hr hl⟩)
    if c = 'n' then word ['u', 'l', 'l'] .null
    else if c = 't' then word ['r', 'u', 'e'] (.bool true)
    else if c = 'f' then word ['a', 'l', 's', 'e'] (.bool false)
    else if c = '-' then do
      let (number, ⟨last, hl⟩) ← readDigits false rest
      .ok (.number number, ⟨last, length_le_of_rest hr (Nat.le_of_lt hl)⟩)
    else if c.isDigit then do
      let (number, ⟨last, hl⟩) ← readDigits true (c :: rest)
      .ok (.number number, ⟨last, Nat.le_trans (Nat.le_of_lt hl) hc⟩)
    else if c = '"' then do
      let (s, ⟨last, hl⟩) ← readString rest
      .ok (.text (String.ofList s), ⟨last, length_le_of_rest hr (Nat.le_of_lt hl)⟩)
    else if c = '[' then .ok (.sequence, ⟨c :: rest, hc⟩)
    else if c = '{' then .ok (.map, ⟨c :: rest, hc⟩)
    else stopAt .valueExpected (c :: rest) 1

/-- A result without a place gets the place that was reached. -/
def placed {α : Type} (rest : List Char) : Except Issue α → Except Stop α
  | .ok a => .ok a
  | .error issue => stopAt issue rest 0

/-- Reads a value that opens nothing as data. -/
def readLeaf {α : Type} (of : Found → Except Issue α) (cs : List Char) :
    Except Stop (α × Rest cs) := do
  let (found, rest) ← readFound cs
  return (← placed rest.1 (of found), rest)

/-- Where an issue of a whole record has its place: behind what closes it, if that comes next. -/
def afterClose (close : Char) (cs : List Char) : List Char :=
  match skipBlanks cs with
  | c :: rest => if c = close then rest else c :: rest
  | [] => []

/-- Reads the closing bracket behind all fields of a list. -/
def readListEnd (cs : List Char) : Except Stop (Rest cs) :=
  match h : skipBlanks cs with
  | [] => stopAt .endInList [] 0
  | c :: rest =>
    if c = ']' then .ok ⟨rest, by
      have := skipBlanks_length_le cs
      rw [h] at this
      simp only [List.length_cons] at this; omega⟩
    else if c = ',' then
      match skipBlanks rest with
      | d :: more =>
        stopAt (if d = ']' then .trailingComma else .trailingCharacters) (d :: more) 1
      | [] => stopAt .trailingCharacters [] 0
    else stopAt .trailingCharacters (c :: rest) 1

/-- Reads the fields of an object up to its closing brace; `take` reads what follows a name. -/
def readDraft {δ : Type} (take : String → δ → (cs : List Char) → Except Stop (δ × Rest cs))
    (draft : δ) (first : Bool) (cs : List Char) : Except Stop (δ × Rest cs) :=
  match nextField? first cs with
  | .error stop => .error stop
  | .ok none => .ok (draft, ⟨skipBlanks cs, skipBlanks_length_le cs⟩)
  | .ok (some ⟨name, hn⟩) =>
    match readString name with
    | .error stop => .error stop
    | .ok (key, ⟨colon, hk⟩) =>
      match take (String.ofList key) draft colon with
      | .error stop => .error stop
      | .ok (draft, ⟨after, ha⟩) =>
        match readDraft take draft false after with
        | .error stop => .error stop
        | .ok (draft, ⟨last, hl⟩) => .ok (draft, ⟨last, by omega⟩)
termination_by cs.length

/-- Reads the object form of a choice, after its brace. -/
def readChoice (names : List String) (cs : List Char) :
    Except Stop ({ n : String // n ∈ names } × Rest cs) := do
  let of : Found → Except Issue { n : String // n ∈ names } := fun
    | .text t => nameOf names t
    | f => .error (.wrongType f "variant identifier")
  let (choice, ⟨colon, hc⟩) ← readLeaf of cs
  let ⟨value, hv⟩ ← readColon colon
  let (_, ⟨after, ha⟩) ← readLeaf nullOnly value
  match h : skipBlanks after with
  | [] => stopAt .endInObject [] 0
  | c :: rest =>
    if c = '}' then
      return (choice, ⟨rest, by
        have := skipBlanks_length_le after
        rw [h] at this
        simp only [List.length_cons] at this; omega⟩)
    else stopAt .valueExpected (c :: rest) 0

mutual

/-- Reads data of a shape. -/
def Shape.read : (s : Shape) → (cs : List Char) → Except Stop (s.Data × Rest cs)
  | .nullable s, cs =>
    if (skipBlanks cs).head? = some 'n' then readLeaf (Shape.nullable s).ofFound cs
    else do
      let (data, rest) ← s.read cs
      return (some data, rest)
  | .choice names, cs =>
    match h : skipBlanks cs with
    | [] => stopAt .endInValue [] 0
    | c :: rest =>
      have hc : (c :: rest).length ≤ cs.length := length_le_of_skipBlanks h
      if c = '{' then do
        let (choice, ⟨last, hl⟩) ← readChoice names rest
        return (choice, ⟨last, by simp only [List.length_cons] at hc; omega⟩)
      else if c = '"' then readLeaf (Shape.choice names).ofFound cs
      else stopAt .valueExpected (c :: rest) 1
  | .record name fields, cs =>
    match h : skipBlanks cs with
    | [] => stopAt .endInValue [] 0
    | c :: rest =>
      have hc : (c :: rest).length ≤ cs.length := length_le_of_skipBlanks h
      have hr : rest.length < cs.length := length_lt_of_skipBlanks h
      if c = '[' then do
        let (data, ⟨after, ha⟩) ← fields.readItems (fields.expected name) 0 rest
        let ⟨last, hl⟩ ← readListEnd after
        return (data, ⟨last, by omega⟩)
      else if c = '{' then do
        let (draft, ⟨after, ha⟩) ←
          readDraft (fun name draft cs => fields.readNamed name draft cs) fields.blank true rest
        let data ← placed (afterClose '}' after) (fields.finish draft)
        return (data, ⟨after.drop 1, by simp only [List.length_drop]; omega⟩)
      else readLeaf (fun f => .error (.wrongType f (Shape.record name fields).expected)) cs
  | .natural bits, cs => readLeaf (Shape.natural bits).ofFound cs
  | .real, cs => readLeaf Shape.real.ofFound cs
  | .boolean, cs => readLeaf Shape.boolean.ofFound cs
  | .text, cs => readLeaf Shape.text.ofFound cs

/-- Reads what follows the name of a field. -/
def Fields.readNamed : (fields : Fields) → String → fields.Draft → (cs : List Char) →
    Except Stop (fields.Draft × Rest cs)
  | .nil, _, draft, cs => do
    let ⟨value, hv⟩ ← readColon cs
    let ⟨last, hl⟩ ← skipValue value
    return (draft, ⟨last, by omega⟩)
  | .cons known _ s rest, name, (found, more), cs =>
    if known = name then
      match found with
      | some _ => stopAt (.duplicateField name) (afterClose '}' cs) 0
      | none => do
        let ⟨value, hv⟩ ← readColon cs
        let (data, ⟨last, hl⟩) ← s.read value
        return ((some data, more), ⟨last, by omega⟩)
    else do
      let (more, last) ← rest.readNamed name more cs
      return ((found, more), last)

/-- Reads the fields of a list, from position `index` on, up to its closing bracket. -/
def Fields.readItems : (fields : Fields) → (expected : String) → (index : Nat) →
    (cs : List Char) → Except Stop (fields.Data × Rest cs)
  | .nil, _, _, cs => .ok ((), ⟨cs, Nat.le_refl _⟩)
  | .cons _ .required s rest, expected, index, cs => do
    match ← nextItem? (index = 0) cs with
    | none => stopAt (.wrongLength index expected) (afterClose ']' cs) 0
    | some ⟨start, hs⟩ =>
      let (data, ⟨after, ha⟩) ← s.read start
      let (more, ⟨last, hl⟩) ← rest.readItems expected (index + 1) after
      return ((data, more), ⟨last, by omega⟩)
  | .cons _ .optional s rest, expected, index, cs => do
    match ← nextItem? (index = 0) cs with
    | none =>
      let (more, last) ← rest.readItems expected (index + 1) cs
      return ((none, more), last)
    | some ⟨start, hs⟩ =>
      let (data, ⟨after, ha⟩) ← s.read start
      let (more, ⟨last, hl⟩) ← rest.readItems expected (index + 1) after
      return ((some data, more), ⟨last, by omega⟩)

end

/-- The data that a text spells, or the first fault. -/
def Shape.ofText (s : Shape) (text : List Char) : Except Fault s.Data :=
  let whole : Except Stop s.Data := do
    let (data, ⟨rest, _⟩) ← s.read text
    readEnd rest
    return data
  match whole with
  | .ok data => .ok data
  | .error stop => .error (stop.inText text)

/-! ### Writing -/

mutual

/-- A value that spells the data. -/
def Shape.toValue : (s : Shape) → s.Data → Value
  | .natural _, n => .number (.natural n.val.toUInt64)
  | .real, x => .number (.real x)
  | .boolean, b => .bool b
  | .text, t => .text t
  | .nullable _, none => .null
  | .nullable s, some data => s.toValue data
  | .choice _, name => .text name.val
  | .record _ fields, data => .object (fields.toEntries data)

/-- The fields of an object that spells the data; optional ones without data are left out. -/
def Fields.toEntries : (fields : Fields) → fields.Data → List (String × Value)
  | .nil, _ => []
  | .cons name .required s rest, (data, more) =>
    putField name (s.toValue data) (rest.toEntries more)
  | .cons name .optional s rest, (data, more) =>
    match data with
    | none => rest.toEntries more
    | some data => putField name (s.toValue data) (rest.toEntries more)

end

end Lightshow.Json
