/-
What a client reads off a light.

A bridge may write a record as an object or as the list of its fields; either way each field has its
part of the value.  A record is read exactly from the values whose parts are its fields, and the data
are those of the parts.

* `Shape.ofValue_record_iff` -- the values that are read as a record, and the data of it;
* `State.ofReply_eq_ok_iff` -- the replies that tell of a light, and the state that they tell of.
-/
import Lightshow.Hue.Light
import Lightshow.Proofs.Grammar

namespace Lightshow

namespace Json

/-! ### Records -/

/-- The part of a value that stands for a field of a record: the one of its name in an object, and
the one at its place in a list. -/
def Value.part? (place : Nat) (name : String) : Value → Option Value
  | .object entries => (Value.object entries).field? name
  | .list items => items[place]?
  | _ => none

/-- A value that has parts; a list has at most so many. -/
def Value.HasParts (most : Nat) : Value → Prop
  | .object _ => True
  | .list items => items.length ≤ most
  | _ => False

/-- The data of a field that has no part of a value; a list leaves out optional fields only. -/
def Shape.missing? (s : Shape) : Value → Option s.Data
  | .object _ => s.absent?
  | _ => none

/-- What is found of a field, after what was found before, when it has a part or none. -/
inductive Shape.Joins (s : Shape) : Option s.Data → Option Value → Option s.Data → Prop
  | none (found : Option s.Data) : s.Joins found none found
  | part {v : Value} {data : s.Data} : s.ofValue v = .ok data → s.Joins none (some v) (some data)

/-- A step after another has a result when both have one. -/
theorem bind_eq_ok_iff {ε α β : Type} {x : Except ε α} {f : α → Except ε β} {b : β} :
    (x >>= f) = .ok b ↔ ∃ a, x = .ok a ∧ f a = .ok b := by
  cases x with
  | error e => exact ⟨nofun, fun ⟨_, h, _⟩ => nomatch h⟩
  | ok a => exact ⟨fun h => ⟨a, rfl, h⟩, fun ⟨_, h, h'⟩ => Except.ok.inj h ▸ h'⟩

namespace Fields

/-- Names of the fields. -/
def names : Fields → List String
  | .nil => []
  | .cons name _ _ rest => name :: rest.names

/-- The parts of a value, from a place on, have the data of a record. -/
def Tell : (fields : Fields) → (place : Nat) → Value → fields.Data → Prop
  | .nil, _, _, _ => True
  | .cons name .required s rest, place, v, (data, more) =>
    (∃ found, s.Joins none (v.part? place name) found ∧ (found <|> s.missing? v) = some data) ∧
      rest.Tell (place + 1) v more
  | .cons name .optional s rest, place, v, (found, more) =>
    s.Joins none (v.part? place name) found ∧ rest.Tell (place + 1) v more

/-- A draft with all that is told of its fields. -/
def Joins (told : String → Option Value) : (fields : Fields) → fields.Draft → fields.Draft → Prop
  | .nil, _, _ => True
  | .cons name _ s rest, (found, more), (found', more') =>
    s.Joins found (told name) found' ∧ rest.Joins told more more'

theorem Joins.congr {told told' : String → Option Value} : ∀ {fields : Fields}
    {draft last : fields.Draft}, (∀ name ∈ fields.names, told name = told' name) →
      (fields.Joins told draft last ↔ fields.Joins told' draft last)
  | .nil, _, _, _ => Iff.rfl
  | .cons name _ s rest, (found, more), (found', more'), same => by
    obtain ⟨first, others⟩ := List.forall_mem_cons.mp same
    rw [Joins, Joins, first, Joins.congr others]

/-- Nothing is told. -/
theorem joins_none : ∀ {fields : Fields} {draft last : fields.Draft},
    fields.Joins (fun _ => none) draft last ↔ last = draft
  | .nil, _, _ => ⟨fun _ => rfl, fun _ => trivial⟩
  | .cons name _ s rest, (found, more), (found', more') => by
    rw [Joins, joins_none, Prod.mk.injEq]
    refine and_congr_left' ⟨fun h => ?_, fun h => h ▸ .none found⟩
    cases h
    rfl

section

variable {known name : String} {presence : Presence} {s : Shape} {rest : Fields} {v : Value}
variable {found : Option s.Data} {more : rest.Draft} {next : Option s.Data × rest.Draft}

theorem take_same : (cons name presence s rest).take name v (found, more) = .ok next ↔
    s.Joins found (some v) next.1 ∧ next.2 = more := by
  rw [take.eq_def]
  dsimp only
  rw [if_pos rfl]
  obtain ⟨found', more'⟩ := next
  cases found with
  | some data => exact ⟨nofun, fun h => nomatch h.1⟩
  | none =>
    rw [bind_eq_ok_iff]
    constructor
    · rintro ⟨data, read, h⟩
      obtain ⟨rfl, rfl⟩ := Prod.mk.inj (Except.ok.inj h)
      exact ⟨.part read, rfl⟩
    · rintro ⟨h, rfl⟩
      cases h with
      | part read => exact ⟨_, read, rfl⟩

theorem take_other (other : known ≠ name) :
    (cons known presence s rest).take name v (found, more) = .ok next ↔
      next.1 = found ∧ rest.take name v more = .ok next.2 := by
  rw [take.eq_def]
  dsimp only
  rw [if_neg other, bind_eq_ok_iff]
  constructor
  · rintro ⟨more', taken, h⟩
    obtain rfl := Except.ok.inj h
    exact ⟨rfl, taken⟩
  · rintro ⟨rfl, taken⟩
    exact ⟨next.2, taken, rfl⟩

end

/-- One more field is told. -/
theorem joins_cons {told : String → Option Value} {name : String} {v : Value}
    (new : told name = none) : ∀ {fields : Fields} {draft last : fields.Draft}, fields.names.Nodup →
      (fields.Joins (fun other => if name = other then some v else told other) draft last ↔
        ∃ next, fields.take name v draft = .ok next ∧ fields.Joins told next last)
  | .nil, draft, last, _ => ⟨fun _ => ⟨draft, rfl, trivial⟩, fun _ => trivial⟩
  | .cons known presence s rest, (found, more), (found', more'), distinct => by
    obtain ⟨here, others⟩ := List.nodup_cons.mp distinct
    rw [Joins]
    by_cases same : name = known
    · subst same
      have later : ∀ other ∈ rest.names,
          (if name = other then some v else told other) = told other := by
        intro other hother
        rw [if_neg]
        rintro rfl
        exact here hother
      rw [if_pos rfl, Joins.congr later]
      constructor
      · rintro ⟨first, joins⟩
        refine ⟨(found', more), take_same.mpr ⟨first, rfl⟩, ?_, joins⟩
        rw [new]
        exact .none found'
      · rintro ⟨⟨_, _⟩, taken, last, joins⟩
        obtain ⟨first, rfl⟩ : _ ∧ _ = more := take_same.mp taken
        rw [new] at last
        cases last
        exact ⟨first, joins⟩
    · rw [if_neg same, joins_cons new others]
      constructor
      · rintro ⟨first, next, taken, joins⟩
        exact ⟨(found, next), (take_other (Ne.symm same)).mpr ⟨rfl, taken⟩, first, joins⟩
      · rintro ⟨next, taken, first, joins⟩
        obtain ⟨rfl, later⟩ := (take_other (Ne.symm same)).mp taken
        exact ⟨first, next.2, later, joins⟩

/-- The fields of an object are taken up in order, but each of them on its own. -/
theorem foldlM_take_iff {fields : Fields} (distinct : fields.names.Nodup)
    {entries : List (String × Value)} (ordered : Ordered entries) {draft last : fields.Draft} :
    entries.foldlM (fun draft entry => fields.take entry.1 entry.2 draft) draft = .ok last ↔
      fields.Joins (Value.object entries).field? draft last := by
  induction entries generalizing draft with
  | nil =>
    refine Iff.trans ?_ joins_none.symm
    exact Except.ok.injEq draft last ▸ eq_comm
  | cons e entries ih =>
    obtain ⟨first, others⟩ := List.pairwise_cons.mp ordered
    have new : (Value.object entries).field? e.1 = none :=
      field?_eq_none fun f hf same => String.lt_irrefl _ (same ▸ first f hf)
    rw [funext (field?_cons · e entries), joins_cons new distinct, List.foldlM_cons, bind_eq_ok_iff]
    simp only [ih others]

/-- The data that an object gives. -/
theorem finish_iff {entries : List (String × Value)} : ∀ {fields : Fields} {data : fields.Data}
    (place : Nat), (∃ last, fields.Joins (Value.object entries).field? fields.blank last ∧
      fields.finish last = .ok data) ↔ fields.Tell place (.object entries) data
  | .nil, (), place => ⟨fun _ => trivial, fun _ => ⟨(), trivial, rfl⟩⟩
  | .cons name .required s rest, (data, more), place => by
    rw [Tell, ← finish_iff (place + 1)]
    constructor
    · rintro ⟨⟨found, last⟩, ⟨first, joins⟩, finished⟩
      rw [finish.eq_def] at finished
      dsimp only at finished
      split at finished
      case h_1 => cases finished
      case h_2 whole =>
        obtain ⟨more', others, h⟩ := bind_eq_ok_iff.mp finished
        obtain ⟨rfl, rfl⟩ := Prod.mk.inj (Except.ok.inj h)
        exact ⟨⟨found, first, whole⟩, last, joins, others⟩
    · rintro ⟨⟨found, first, whole⟩, last, joins, finished⟩
      refine ⟨(found, last), ⟨first, joins⟩, ?_⟩
      rw [finish.eq_def]
      dsimp only
      rw [show (found <|> s.absent?) = some data from whole, finished]
      rfl
  | .cons name .optional s rest, (found, more), place => by
    rw [Tell, ← finish_iff (place + 1)]
    constructor
    · rintro ⟨⟨found', last⟩, ⟨first, joins⟩, finished⟩
      obtain ⟨more', others, h⟩ := bind_eq_ok_iff.mp finished
      obtain ⟨rfl, rfl⟩ := Prod.mk.inj (Except.ok.inj h)
      exact ⟨first, last, joins, others⟩
    · rintro ⟨first, last, joins, finished⟩
      refine ⟨(found, last), ⟨first, joins⟩, ?_⟩
      rw [finish, finished]
      rfl

/-- The data that a list gives. -/
theorem ofItems_iff {expected : String} {items : List Value} : ∀ {fields : Fields}
    {data : fields.Data} {rest : List Value} (place : Nat),
    fields.ofItems expected place (items.drop place) = .ok (data, rest) ↔
      rest = items.drop (place + fields.count) ∧ fields.Tell place (.list items) data
  | .nil, (), rest, place => by
    rw [ofItems]
    exact ⟨fun h => ⟨(Prod.mk.inj (Except.ok.inj h)).2.symm, trivial⟩, fun h => by rw [h.1]; rfl⟩
  | .cons name .required s fields, (data, more), rest, place => by
    rw [Tell, count, Nat.add_comm fields.count, ← Nat.add_assoc, and_left_comm,
      ← ofItems_iff (place + 1)]
    show _ ↔ (∃ found, s.Joins none items[place]? found ∧ (found <|> none) = some data) ∧ _
    by_cases inside : place < items.length
    · rw [List.drop_eq_getElem_cons inside, List.getElem?_eq_getElem inside, ofItems, bind_eq_ok_iff]
      constructor
      · rintro ⟨data', read, h⟩
        obtain ⟨⟨more', rest'⟩, others, h⟩ := bind_eq_ok_iff.mp h
        cases h
        exact ⟨⟨_, .part read, rfl⟩, others⟩
      · rintro ⟨⟨_, h, whole⟩, others⟩
        cases h with
        | part read =>
          cases whole
          exact ⟨data, read, by rw [others]; rfl⟩
    · rw [List.drop_eq_nil_of_le (Nat.le_of_not_lt inside),
        List.getElem?_eq_none (Nat.le_of_not_lt inside), ofItems]
      refine ⟨nofun, fun ⟨⟨_, h, whole⟩, _⟩ => ?_⟩
      cases h
      cases whole
  | .cons name .optional s fields, (found, more), rest, place => by
    rw [Tell, count, Nat.add_comm fields.count, ← Nat.add_assoc, and_left_comm,
      ← ofItems_iff (place + 1)]
    show _ ↔ s.Joins none items[place]? found ∧ _
    by_cases inside : place < items.length
    · rw [List.drop_eq_getElem_cons inside, List.getElem?_eq_getElem inside, ofItems, bind_eq_ok_iff]
      constructor
      · rintro ⟨data', read, h⟩
        obtain ⟨⟨more', rest'⟩, others, h⟩ := bind_eq_ok_iff.mp h
        cases h
        exact ⟨.part read, others⟩
      · rintro ⟨h, others⟩
        cases h with
        | part read => exact ⟨_, read, by rw [others]; rfl⟩
    · rw [List.drop_eq_nil_of_le (Nat.le_of_not_lt inside),
        List.drop_eq_nil_of_le (by omega : items.length ≤ place + 1),
        List.getElem?_eq_none (Nat.le_of_not_lt inside), ofItems, bind_eq_ok_iff]
      constructor
      · rintro ⟨⟨more', rest'⟩, others, h⟩
        cases h
        exact ⟨.none none, others⟩
      · rintro ⟨h, others⟩
        cases h
        exact ⟨_, others, rfl⟩

end Fields

/-- A record is read from the values whose parts are its fields. -/
theorem Shape.ofValue_record_iff {name : String} {fields : Fields} (distinct : fields.names.Nodup)
    {v : Value} (ordered : ∀ entries, v = .object entries → Ordered entries) {data : fields.Data} :
    (Shape.record name fields).ofValue v = .ok data ↔
      v.HasParts fields.count ∧ fields.Tell 0 v data := by
  cases v with
  | object entries =>
    rw [← Fields.finish_iff, Shape.ofValue, bind_eq_ok_iff]
    simp only [Fields.foldlM_take_iff distinct (ordered entries rfl)]
    exact (and_iff_right trivial).symm
  | list items =>
    rw [Shape.ofValue, bind_eq_ok_iff]
    have read := fun data rest => @Fields.ofItems_iff (fields.expected name) items fields data rest 0
    simp only [List.drop_zero, Nat.zero_add] at read
    constructor
    · rintro ⟨⟨data', rest⟩, told, h⟩
      obtain ⟨left, tell⟩ := (read data' rest).mp told
      dsimp only at h
      split at h
      case isTrue none =>
        cases h
        exact ⟨List.drop_eq_nil_iff.mp (left ▸ List.isEmpty_iff.mp none), tell⟩
      case isFalse => cases h
    · rintro ⟨few, tell⟩
      refine ⟨(data, []), (read data []).mpr ⟨(List.drop_eq_nil_iff.mpr few).symm, tell⟩, rfl⟩
  | _ => exact ⟨nofun, fun h => h.1.elim⟩

/-- A field that has to be there, and is never filled in, has a part. -/
theorem Shape.required_iff {s : Shape} (solid : s.absent? = none) {v : Value} {part : Option Value}
    {data : s.Data} : (∃ found, s.Joins none part found ∧ (found <|> s.missing? v) = some data) ↔
      ∃ p, part = some p ∧ s.ofValue p = .ok data := by
  have missing : s.missing? v = none := by
    cases v with
    | object entries => exact solid
    | _ => rfl
  rw [missing]
  constructor
  · rintro ⟨found, h, whole⟩
    cases h with
    | none => cases whole
    | part read =>
      cases whole
      exact ⟨_, rfl, read⟩
  · rintro ⟨p, rfl, read⟩
    exact ⟨some data, .part read, rfl⟩

/-! ### Leaves of records -/

theorem ofValue_boolean_iff {v : Value} {b : Bool} :
    Shape.boolean.ofValue v = .ok b ↔ v = .bool b := by
  constructor
  · intro h
    cases v <;> cases h
    rfl
  · rintro rfl
    rfl

theorem ofValue_text_iff {v : Value} {s : String} :
    Shape.text.ofValue v = .ok s ↔ v = .text s := by
  constructor
  · intro h
    cases v <;> cases h
    rfl
  · rintro rfl
    rfl

theorem ofValue_natural_iff {bits : Nat} {v : Value} {n : Fin (Nat.pow 2 bits)} :
    (Shape.natural bits).ofValue v = .ok n ↔
      ∃ k : UInt64, v = .number (.natural k) ∧ k.toNat = n.val := by
  constructor
  · intro h
    cases v with
    | number m =>
      cases m with
      | natural k =>
        have read : naturalOf bits (.natural k) = .ok n := h
        rw [naturalOf] at read
        split at read
        case isTrue small =>
          obtain rfl := Except.ok.inj read
          exact ⟨k, rfl, rfl⟩
        case isFalse => cases read
      | _ => cases h
    | _ => cases h
  · rintro ⟨k, rfl, same⟩
    show naturalOf bits (.natural k) = .ok n
    rw [naturalOf, dif_pos (same ▸ n.isLt)]
    exact congrArg Except.ok (Fin.ext same)

end Json

namespace Hue

open Json

/-! ### Lights -/

/-- A part that is a natural; a part that is left out stands for zero. -/
def Amounts (part : Option Value) (n : Nat) : Prop :=
  match part with
  | some v => ∃ k : UInt64, v = .number (.natural k) ∧ k.toNat = n
  | none => n = 0

/-- A value that tells of the state of a light: whether it is on, and, unless they are left out, its
levels and its hue.  The levels fit into 8 bits, and the hue into 16. -/
structure TellsState (v : Value) (state : State) : Prop where
  parts : v.HasParts 4
  on : v.part? 0 "on" = some (.bool state.on)
  brightness : Amounts (v.part? 1 "bri") state.hsb.brightness.toNat
  hue : Amounts (v.part? 2 "hue") state.hsb.hue.toNat
  saturation : Amounts (v.part? 3 "sat") state.hsb.saturation.toNat

/-- A value that tells of a light: its name, unless that is left out, and its state. -/
structure TellsLight (v : Value) (state : State) : Prop where
  parts : v.HasParts 2
  name : ∀ part, v.part? 0 "name" = some part → ∃ s, part = .text s
  state : ∃ part, v.part? 1 "state" = some part ∧ TellsState part state

theorem amounts_of_joins {bits : Nat} {part : Option Value}
    {found : Option (Shape.natural bits).Data} (h : (Shape.natural bits).Joins none part found) :
    Amounts part ((found.map Fin.val).getD 0) := by
  cases h with
  | none => rfl
  | part read => exact ofValue_natural_iff.mp read

theorem Amounts.joins {part : Option Value} {n : Nat} (h : Amounts part n) {bits : Nat}
    (small : n < Nat.pow 2 bits) : ∃ found : Option (Shape.natural bits).Data,
      (Shape.natural bits).Joins none part found ∧ (found.map Fin.val).getD 0 = n := by
  cases part with
  | none => exact ⟨none, .none none, h.symm⟩
  | some v => exact ⟨some ⟨n, small⟩, .part (ofValue_natural_iff.mpr h), rfl⟩

theorem toNat_level (found : Option (Fin (Nat.pow 2 8))) :
    ((found.map UInt8.ofFin).getD 0).toNat = (found.map Fin.val).getD 0 := by
  cases found <;> rfl

theorem toNat_hue (found : Option (Fin (Nat.pow 2 16))) :
    ((found.map UInt16.ofFin).getD 0).toNat = (found.map Fin.val).getD 0 := by
  cases found <;> rfl

namespace State

variable {limit : Nat} {t : List Char} {v : Value} {state : State}

/-- A state is read from the values that tell of it. -/
theorem ofData_iff (text : Value.Text limit t v) :
    (∃ data, shape.ofValue v = .ok data ∧ ofData data = state) ↔ TellsState v state := by
  have read : ∀ data : shape.Data, shape.ofValue v = .ok data ↔ _ := fun data =>
    Shape.ofValue_record_iff (by decide) (fun _ h => (h ▸ text).ordered)
  constructor
  · rintro ⟨⟨on, bri, hue, sat, _⟩, h, rfl⟩
    obtain ⟨parts, first, bri, hue, sat, -⟩ := (read _).mp h
    obtain ⟨p, here, told⟩ := (Shape.required_iff rfl).mp first
    refine ⟨parts, ofValue_boolean_iff.mp told ▸ here, ?_, ?_, ?_⟩
    · exact toNat_level _ ▸ amounts_of_joins bri
    · exact toNat_hue _ ▸ amounts_of_joins hue
    · exact toNat_level _ ▸ amounts_of_joins sat
  · intro h
    obtain ⟨bri, hbri, bri_eq⟩ := h.brightness.joins state.hsb.brightness.toNat_lt
    obtain ⟨hue, hhue, hue_eq⟩ := h.hue.joins state.hsb.hue.toNat_lt
    obtain ⟨sat, hsat, sat_eq⟩ := h.saturation.joins state.hsb.saturation.toNat_lt
    refine ⟨(state.on, bri, hue, sat, ()), (read _).mpr ⟨h.parts, ?_, hbri, hhue, hsat, trivial⟩, ?_⟩
    · exact (Shape.required_iff rfl).mpr ⟨_, h.on, rfl⟩
    · rw [ofData, UInt16.toNat_inj.mp ((toNat_hue hue).trans hue_eq),
        UInt8.toNat_inj.mp ((toNat_level sat).trans sat_eq),
        UInt8.toNat_inj.mp ((toNat_level bri).trans bri_eq)]

/-- A reply is read as a light exactly if it tells of one, and then as the state that it tells of. -/
theorem ofReply_eq_ok_iff (text : Value.Text limit t v) :
    ofReply v = .ok state ↔ TellsLight v state := by
  have read : ∀ data : lightShape.Data, lightShape.ofValue v = .ok data ↔ _ := fun data =>
    Shape.ofValue_record_iff (by decide) (fun _ h => (h ▸ text).ordered)
  have inner : ∀ part, v.part? 1 "state" = some part → ∃ limit u, Value.Text limit u part := by
    intro part here
    cases v with
    | object entries => exact text.exists_field here
    | list items => exact text.exists_item part (List.mem_of_getElem? here)
    | _ => cases here
  constructor
  · intro h
    rw [ofReply] at h
    split at h
    case h_1 name data whole =>
      obtain rfl := Except.ok.inj h
      obtain ⟨parts, name, first, -⟩ := (read _).mp whole
      obtain ⟨part, here, told⟩ := (Shape.required_iff rfl).mp first
      obtain ⟨_, _, text⟩ := inner part here
      refine ⟨parts, fun part named => ?_, part, here, (ofData_iff text).mp ⟨data, told, rfl⟩⟩
      rw [named] at name
      cases name with
      | part read => exact ⟨_, ofValue_text_iff.mp read⟩
    case h_2 => cases h
  · rintro ⟨parts, name, part, here, tells⟩
    obtain ⟨_, _, text⟩ := inner part here
    obtain ⟨data, told, rfl⟩ := (ofData_iff text).mpr tells
    have named : ∃ found, Shape.text.Joins none (v.part? 0 "name") found := by
      cases whole : v.part? 0 "name" with
      | none => exact ⟨none, .none none⟩
      | some p =>
        obtain ⟨s, rfl⟩ := name p whole
        exact ⟨some s, .part rfl⟩
    obtain ⟨found, named⟩ := named
    have whole : lightShape.ofValue v = .ok (found, data, ()) :=
      (read _).mpr ⟨parts, named, (Shape.required_iff rfl).mpr ⟨part, here, told⟩, trivial⟩
    rw [ofReply, whole]

end State

end Hue

end Lightshow
