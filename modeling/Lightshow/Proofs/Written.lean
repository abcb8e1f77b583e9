/-
The compact text of a value, part by part.

What is written for an object has the text of an object: its fields with commas between them and no
blanks.  Since the fields are in order, a name leads to the same part of the text as of the value.

* `leaf_text`, `leaf_natural` -- a string and a natural are written as their texts;
* `items_innerText` -- the fields of an object are written as parts of an object;
* `under_ordered` -- what stands under a name is what was written for the field of that name;
* `Value.field?_dropFields`, `Value.field?_mapFields` -- the fields of a changed object, by their names;
* `Fields.field?_toEntries` -- the fields of a record, by their names.
-/
import Lightshow.Proofs.Records

namespace Lightshow.Json

/-! ### Leaves -/

/-- The characters of a string are written as they are read. -/
theorem quotes_escaped (cs : List Char) : Quotes (cs.flatMap escaped) cs := by
  obtain ⟨_, read⟩ := readString_quoted cs []
  obtain ⟨t, same, quotes⟩ := quotes_readString (reads_iff.mpr ⟨_, read⟩)
  obtain rfl := List.append_cancel_right same
  exact quotes

theorem leaf_text (s : String) : Leaf (Value.text s).write.toList (.text s) := by
  have leaf := Leaf.text (quotes_escaped s.toList)
  rw [String.ofList_toList] at leaf
  rw [Value.write, quoted, String.toList_ofList]
  exact leaf

theorem leaf_natural (n : UInt64) :
    Leaf (Value.number (.natural n)).write.toList (.number (.natural n)) := by
  have leaf := leaf_toDigits n.toNat_lt
  rw [endInteger, if_pos rfl, Nat.toUInt64_eq, UInt64.ofNat_toNat] at leaf
  rw [Value.write, Number.write, toList_toString_nat]
  exact leaf

/-! ### Objects -/

theorem items_behindCommas {α : Type} {spelled : List Char → α → Prop} {pieces : List (List Char × α)}
    (h : ∀ p ∈ pieces, spelled p.1 p.2) :
    Items Blank spelled false (behindCommas pieces) (pieces.map (·.2)) := by
  induction pieces with
  | nil => exact .nil .nil
  | cons p pieces ih =>
    obtain ⟨first, others⟩ := List.forall_mem_cons.mp h
    exact .next .nil .nil first (ih others)

theorem items_drop_behindCommas {α : Type} {spelled : List Char → α → Prop}
    {pieces : List (List Char × α)} (h : ∀ p ∈ pieces, spelled p.1 p.2) :
    Items Blank spelled true ((behindCommas pieces).drop 1) (pieces.map (·.2)) := by
  cases pieces with
  | nil => exact .nil .nil
  | cons p pieces =>
    obtain ⟨first, others⟩ := List.forall_mem_cons.mp h
    exact .first .nil first (items_behindCommas others)

theorem fieldText_fieldPiece {α : Type} {spelled : List Char → α → Prop}
    {p : String × List Char × α} (h : spelled p.2.1 p.2.2) :
    FieldText spelled (fieldPiece p).1 (fieldPiece p).2 := by
  have text := FieldText.mk (quotes_escaped p.1.toList) .nil .nil h
  rw [String.ofList_toList] at text
  rw [fieldPiece, nameText, List.cons_append, List.append_assoc]
  exact text

/-- What stands between the braces of a written object. -/
def innerText (fields : List (String × Value)) : List Char :=
  (behindCommas (fields.map fun f => (nameText f.1 ++ f.2.write.toList, ()))).drop 1

theorem write_object_inner (fields : List (String × Value)) :
    (Value.object fields).write.toList = '\x7b' :: (innerText fields ++ ['\x7d']) := by
  rw [write_object, innerText]
  simp only [behindCommas, List.flatMap_map, fieldPiece]

/-- The fields of an object are written as parts of an object. -/
theorem items_innerText {α : Type} {spelled : List Char → α → Prop} {fields : List (String × Value)}
    (of : Value → α) (h : ∀ f ∈ fields, spelled f.2.write.toList (of f.2)) :
    Items Blank (FieldText spelled) true (innerText fields) (fields.map fun f => (f.1, of f.2)) := by
  have pieces : ∀ p ∈ (fields.map fun f => (f.1, f.2.write.toList, of f.2)).map fieldPiece,
      FieldText spelled p.1 p.2 := by
    intro p hp
    obtain ⟨q, hq, rfl⟩ := List.mem_map.mp hp
    obtain ⟨f, hf, rfl⟩ := List.mem_map.mp hq
    exact fieldText_fieldPiece (h f hf)
  have items := items_drop_behindCommas pieces
  simpa only [innerText, behindCommas, List.flatMap_map, List.map_map, Function.comp_def, fieldPiece]
    using items

theorem text_object {fields : List (String × Value)} (ordered : Ordered fields) {limit : Nat}
    (texts : ∀ f ∈ fields, Value.Text limit f.2.write.toList f.2) :
    Value.Text (limit + 1) (Value.object fields).write.toList (.object fields) := by
  have object := Layer.object (items_innerText (fun v => v) texts)
  rw [List.map_id', foldl_putField [] ordered, List.nil_append, ← write_object_inner] at object
  exact object

/-- Under a name stands one part of fields in order, that of the field which is found. -/
theorem under_ordered {fields : List (String × Value)} (ordered : Ordered fields) {ν : Type}
    (f : Value → ν) (name : String) : under name (fields.map fun p => (p.1, f p.2)) =
      (((Value.object fields).field? name).map f).toList := by
  induction fields with
  | nil => rfl
  | cons p fields ih =>
    obtain ⟨first, others⟩ := List.pairwise_cons.mp ordered
    rw [List.map_cons, under_cons, field?_cons, ih others]
    by_cases same : p.1 = name
    · have none : (Value.object fields).field? name = none :=
        field?_eq_none fun g hg => same ▸ (String.ne_of_lt (first g hg)).symm
      rw [if_pos same, if_pos same, none]
      rfl
    · rw [if_neg same, if_neg same]

/-! ### Changed objects -/

namespace Value

/-- An object without the fields of some names. -/
def dropFields (names : List String) : Value → Value
  | .object fields => .object (fields.filter fun f => f.1 ∉ names)
  | v => v

/-- An object with the values of its fields changed. -/
def mapFields (f : Value → Value) : Value → Value
  | .object fields => .object (fields.map fun p => (p.1, f p.2))
  | v => v

theorem dropFields_nil (v : Value) : v.dropFields [] = v := by
  cases v with
  | object fields =>
    rw [dropFields, List.filter_eq_self.mpr fun _ _ => decide_eq_true List.not_mem_nil]
  | _ => rfl

theorem mapFields_id (v : Value) : v.mapFields (fun w => w) = v := by
  cases v with
  | object fields => rw [mapFields, List.map_id']
  | _ => rfl

theorem field?_dropFields (names : List String) (name : String) (v : Value) :
    (v.dropFields names).field? name = if name ∈ names then none else v.field? name := by
  cases v with
  | object fields =>
    induction fields with
    | nil => exact (ite_self _).symm
    | cons p fields ih =>
      rw [dropFields, List.filter_cons]
      by_cases out : p.1 ∈ names
      · rw [if_neg (by simpa using out), field?_cons]
        by_cases same : p.1 = name
        · subst same
          rw [if_pos out]
          rw [if_pos out] at ih
          exact ih
        · rw [if_neg same]
          exact ih
      · rw [if_pos (decide_eq_true out), field?_cons, field?_cons]
        by_cases same : p.1 = name
        · subst same
          rw [if_pos rfl, if_neg out, if_pos rfl]
        · rw [if_neg same, if_neg same]
          exact ih
  | _ => exact (ite_self _).symm

theorem field?_mapFields (f : Value → Value) (name : String) (v : Value) :
    (v.mapFields f).field? name = (v.field? name).map f := by
  cases v with
  | object fields =>
    rw [mapFields, field?, field?, List.find?_map, Option.map_map, Option.map_map]
    rfl
  | _ => rfl

end Value

theorem Ordered.filter {fields : List (String × Value)} (h : Ordered fields) (p : String × Value → Bool) :
    Ordered (fields.filter p) :=
  List.Pairwise.filter p h

theorem Ordered.map {fields : List (String × Value)} (h : Ordered fields) (f : Value → Value) :
    Ordered (fields.map fun p => (p.1, f p.2)) :=
  List.Pairwise.map _ (fun _ _ less => less) h

/-! ### Records -/

namespace Fields

/-- The fields of a record are written in order. -/
theorem ordered_toEntries : ∀ {fields : Fields} (data : fields.Data), Ordered (fields.toEntries data)
  | .nil, _ => List.Pairwise.nil
  | .cons name .required s _, (data, more) => (ordered_toEntries more).putField name (s.toValue data)
  | .cons _ .optional _ _, (none, more) => ordered_toEntries more
  | .cons name .optional s _, (some data, more) =>
    (ordered_toEntries more).putField name (s.toValue data)

theorem mem_toEntries {name : String} {s : Shape} {rest : Fields} {found : Option s.Data}
    {more : rest.Data} {f : String × Value}
    (h : f ∈ (cons name .optional s rest).toEntries (found, more)) :
    (∃ data ∈ found, f = (name, s.toValue data)) ∨ f ∈ rest.toEntries more := by
  cases found with
  | none => exact .inr h
  | some data => exact (mem_putField h).imp_left fun same => ⟨data, rfl, same⟩

/-- The value that is written for a field, by its name. -/
def value? (name : String) : (fields : Fields) → fields.Data → Option Value
  | .nil, _ => none
  | .cons known .required s rest, (data, more) =>
    if known = name then some (s.toValue data) else rest.value? name more
  | .cons known .optional s rest, (found, more) =>
    if known = name then (found.map s.toValue).or (rest.value? name more) else rest.value? name more

theorem field?_toEntries {name : String} : ∀ {fields : Fields} (data : fields.Data),
    (Value.object (fields.toEntries data)).field? name = fields.value? name data
  | .nil, _ => rfl
  | .cons known .required s rest, (data, more) => by
    rw [value?, ← field?_toEntries more]
    exact field?_putField name known (s.toValue data) (rest.toEntries more)
  | .cons known .optional s rest, (none, more) => by
    rw [value?, ← field?_toEntries more]
    exact (ite_self _).symm
  | .cons known .optional s rest, (some data, more) => by
    rw [value?, ← field?_toEntries more]
    exact field?_putField name known (s.toValue data) (rest.toEntries more)

end Fields

end Lightshow.Json
