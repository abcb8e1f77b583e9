/-
Which elements of a script are commands.

An element is a command exactly when it is a list of a delay and of a list of a code and integers,
of which there are as many as the code takes or more.  Integers stand in a script in one way only, in
decimal, so the condition can be read off the text.  Parsing takes all elements or reports the first
that is none.

* `Command.ofValue_eq_ok_iff` -- the elements that are commands;
* `Script.first_of_commandsOf` -- the element that is reported;
* `Script.parse_elements` -- what becomes of the elements of a script.
-/
import Mathlib
import Lightshow.Proofs.LastComma
import Lightshow.Proofs.Spelling

namespace Lightshow

namespace Json

/-! ### Integers -/

/-- A value that is read as an integer is the value of that integer. -/
theorem Value.Text.eq_integerValue {limit : Nat} {t : List Char} {v : Value} {p : Int64}
    (h : Value.Text limit t v) (integer : v.integer? = some p) : v = integerValue p := by
  have text := h.eq_toString integer
  subst text
  exact h.unique (leaf_integerValue p)

/-- An integer of 64 bits stands in decimal, and nothing else does that reads like it. -/
theorem Value.Text.integerValue_iff {limit : Nat} {t : List Char} {p : Int64} :
    Value.Text limit t (integerValue p) ↔ t = (toString p).toList := by
  constructor
  · exact fun h => h.eq_toString (integer?_integerValue p)
  · rintro rfl
    exact .leaf (leaf_integerValue p) limit

theorem endInteger_eq_integerValue (d : UInt32) :
    .number (endInteger true d.toNat) = integerValue (Int64.ofNat d.toNat) := by
  have small := d.toNat_lt
  have same : (Int64.ofNat d.toNat).toInt = d.toNat := Int64.toInt_ofNat_of_lt (by omega)
  rw [integerValue, same, decide_eq_true (Int.natCast_nonneg _), Int.natAbs_natCast]

/-- So does a natural of 32 bits. -/
theorem Value.Text.delay_iff {limit : Nat} {t : List Char} {d : UInt32} :
    Value.Text limit t (.number (endInteger true d.toNat)) ↔ t = (toString d).toList := by
  have small := d.toNat_lt
  have same : (Int64.ofNat d.toNat).toInt = d.toNat := Int64.toInt_ofNat_of_lt (by omega)
  have text : toString (Int64.ofNat d.toNat) = toString d := by
    show toString (Int64.ofNat d.toNat).toInt = toString d.toNat
    rw [same]
    rfl
  rw [endInteger_eq_integerValue, Value.Text.integerValue_iff, text]

end Json

open Json ScriptText

/-! ### Elements -/

/-- An element as a command is written. -/
def IsTuple (v : Value) : Prop := ∃ e : Tuple, v = .list e.items

/-- An element and the command that is meant by it: each parameter that the instruction takes is the
one that is written. -/
def Means (v : Value) (c : Command) : Prop :=
  ∃ e : Tuple, v = .list e.items ∧ c = e.command ∧
    ∀ i < c.instruction.arity, e.params[i]? = some (c.param i)

theorem Tuple.param (e : Tuple) {i : Nat} (h : i < e.command.instruction.arity) :
    e.params[i]? = some (e.command.param i) := by
  have inside : i < e.params.length := Nat.lt_of_lt_of_le h e.enough
  rw [Command.param, Tuple.command, List.getD_eq_getElem?_getD, List.getElem?_eq_getElem inside,
    Option.getD_some]

theorem Command.delay_of_delayOf? {v : Value} {d : UInt32} (h : Command.delayOf? v = some d) :
    v = .number (endInteger true d.toNat) := by
  cases v with
  | number n =>
    cases n with
    | natural n =>
      dsimp only [delayOf?, Value.natural?] at h
      split_ifs at h with small
      have same : n.toNat % 2 ^ 32 = n.toNat := Nat.mod_eq_of_lt small
      rw [← Option.some.inj h, UInt64.toNat_toUInt32, same, endInteger, if_pos rfl]
      exact congrArg (fun n => Value.number (.natural n)) (UInt64.ofNat_toNat).symm
    | _ => cases h
  | _ => cases h

/-- Values that were read and are integers are written like those. -/
theorem eq_map_integerValue {vs : List Value} {ps : List Int64}
    (texts : ∀ v ∈ vs, ∃ limit t, Value.Text limit t v)
    (integers : vs.map Value.integer? = ps.map some) : vs = ps.map integerValue := by
  refine List.ext_getElem? fun i => ?_
  have same : (vs.map Value.integer?)[i]? = (ps.map some)[i]? := congrArg (·[i]?) integers
  rw [List.getElem?_map, List.getElem?_map] at same
  rw [List.getElem?_map]
  cases hv : vs[i]? with
  | none =>
    rw [hv] at same
    rw [Option.map_eq_none_iff.mp same.symm]
    rfl
  | some v =>
    rw [hv] at same
    obtain ⟨p, hp, integer⟩ := Option.map_eq_some_iff.mp same.symm
    obtain ⟨_, _, written⟩ := texts v (List.mem_of_getElem? hv)
    rw [hp, written.eq_integerValue integer.symm]
    rfl

/-- A value that was read is a command exactly if it is written like one. -/
theorem Command.ofValue_eq_ok_iff {limit : Nat} {t : List Char} {v : Value} {c : Command}
    (text : Value.Text limit t v) :
    Command.ofValue v = .ok c ↔ ∃ e : Tuple, v = .list e.items ∧ c = e.command := by
  constructor
  · intro h
    obtain ⟨delay, code, ps, rfl, ticks, instruction, params, enough⟩ := parts_of_ofValue h
    -- the parameters are items of an item, and so were read themselves
    obtain ⟨_, _, inner⟩ := text.exists_item (.list (.text code :: ps)) (by simp)
    have integers : ps = c.params.map integerValue :=
      eq_map_integerValue (fun p hp => inner.exists_item p (List.mem_cons_of_mem _ hp)) params
    obtain ⟨d, instruction', qs⟩ := c
    obtain rfl : instruction' = .ofCode code := instruction
    refine ⟨⟨d, code, qs, enough⟩, ?_, rfl⟩
    rw [Tuple.items, instructionItems, ← integers, delay_of_delayOf? ticks]
  · rintro ⟨e, rfl, rfl⟩
    exact e.ofValue_items

theorem isTuple_iff {limit : Nat} {t : List Char} {v : Value} (text : Value.Text limit t v) :
    IsTuple v ↔ ∃ c, Command.ofValue v = .ok c := by
  simp only [Command.ofValue_eq_ok_iff text]
  exact ⟨fun ⟨e, he⟩ => ⟨_, e, he, rfl⟩, fun ⟨_, e, he, _⟩ => ⟨e, he⟩⟩

theorem Means.of_ofValue {limit : Nat} {t : List Char} {v : Value} {c : Command}
    (text : Value.Text limit t v) (h : Command.ofValue v = .ok c) : Means v c := by
  obtain ⟨e, written, rfl⟩ := (Command.ofValue_eq_ok_iff text).mp h
  exact ⟨e, written, rfl, fun _ hi => e.param hi⟩

namespace Script

theorem commandsOf_cons {v : Value} {c : Command} (h : Command.ofValue v = .ok c) (index : Nat)
    (vs : List Value) :
    commandsOf index (v :: vs) = (commandsOf (index + 1) vs).map (c :: ·) := by
  rw [commandsOf, h]
  dsimp only
  cases commandsOf (index + 1) vs <;> rfl

/-- The error is that of the first element that is no command. -/
theorem first_of_commandsOf {index : Nat} {vs : List Value} {error : ScriptError}
    (h : commandsOf index vs = .error error) : ∃ before v after cause, vs = before ++ v :: after ∧
      (∀ w ∈ before, ∃ c, Command.ofValue w = .ok c) ∧ Command.ofValue v = .error cause ∧
      error = .invalidCommand (index + before.length) (.badCommand cause) := by
  induction vs generalizing index with
  | nil => cases h
  | cons v vs ih =>
    cases first : Command.ofValue v with
    | error cause =>
      rw [commandsOf, first] at h
      exact ⟨[], v, vs, cause, rfl, List.forall_mem_nil _, first, (Except.error.inj h).symm⟩
    | ok c =>
      rw [commandsOf_cons first] at h
      cases others : commandsOf (index + 1) vs with
      | ok cs =>
        rw [others] at h
        cases h
      | error e =>
        rw [others] at h
        obtain rfl := Except.error.inj h
        obtain ⟨before, w, after, cause, rfl, fine, bad, rfl⟩ := ih others
        refine ⟨v :: before, w, after, cause, rfl, ?_, bad, ?_⟩
        · exact List.forall_mem_cons.mpr ⟨⟨c, first⟩, fine⟩
        · rw [List.length_cons, Nat.add_assoc, Nat.add_comm 1]

variable {raw : String} {document : Value} {elements : List Value}

/-- A script is read from the elements of its document. -/
theorem parse_eq_commandsOf (read : Value.ofText (normalize raw).toList = .ok document)
    (data : document.field? dataField = some (.list elements)) :
    Script.parse raw = (commandsOf 0 elements).map Script.mk := by
  rw [Script.parse, read]
  dsimp only
  rw [ofDocument, data]
  dsimp only [Option.bind_some, Value.items?]
  cases commandsOf 0 elements <;> rfl

/-- The elements of a document were read with it. -/
theorem exists_text_of_element {source : List Char} (read : Value.ofText source = .ok document)
    (data : document.field? dataField = some (.list elements)) :
    ∀ v ∈ elements, ∃ limit t, Value.Text limit t v := by
  obtain ⟨_, _, _, -, -, -, text⟩ := Value.ofText_eq_ok_iff.mp read
  obtain ⟨_, _, list⟩ := text.exists_field data
  exact list.exists_item

/-- The commands of a script are those that its elements mean. -/
theorem means_of_commandsOf {index : Nat} {cs : List Command}
    (texts : ∀ v ∈ elements, ∃ limit t, Value.Text limit t v)
    (h : commandsOf index elements = .ok cs) : List.Forall₂ Means elements cs := by
  have readAs : ReadAs elements cs := commandsOf_eq_ok_iff.mp h
  refine List.forall₂_iff_get.mpr ⟨readAs.length_eq, fun i hi hj => ?_⟩
  obtain ⟨_, _, text⟩ := texts _ (List.get_mem elements ⟨i, hi⟩)
  exact .of_ofValue text (readAs.get hi hj)

/-- The element that is reported is the first that is not written like a command. -/
theorem first_of_commandsOf_of_texts {index : Nat} {error : ScriptError}
    (texts : ∀ v ∈ elements, ∃ limit t, Value.Text limit t v)
    (h : commandsOf index elements = .error error) : ∃ before v after cause,
      elements = before ++ v :: after ∧ (∀ w ∈ before, IsTuple w) ∧ ¬IsTuple v ∧
      error = .invalidCommand (index + before.length) (.badCommand cause) := by
  obtain ⟨before, v, after, cause, rfl, fine, refused, rfl⟩ := first_of_commandsOf h
  refine ⟨before, v, after, cause, rfl, fun w hw => ?_, fun tuple => ?_, rfl⟩
  · obtain ⟨_, _, text⟩ := texts w (List.mem_append_left _ hw)
    exact (isTuple_iff text).mpr (fine w hw)
  · obtain ⟨_, _, text⟩ := texts v (by simp)
    obtain ⟨c, hc⟩ := (isTuple_iff text).mp tuple
    cases refused.symm.trans hc

/-- **A script is parsed exactly if each of its elements is written like a command.**  Then it has
those commands, in order; otherwise the error names the first element that is not.  Delays and
parameters are written in decimal, without a fraction, an exponent or a negative zero. -/
theorem parse_elements (read : Value.ofText (normalize raw).toList = .ok document)
    (data : document.field? dataField = some (.list elements)) :
    ((∃ s, Script.parse raw = .ok s) ↔ ∀ v ∈ elements, IsTuple v) ∧
    (∀ s, Script.parse raw = .ok s → List.Forall₂ Means elements s.commands) ∧
    (∀ error, Script.parse raw = .error error → ∃ before v after cause,
      elements = before ++ v :: after ∧ (∀ w ∈ before, IsTuple w) ∧ ¬IsTuple v ∧
      error = .invalidCommand before.length (.badCommand cause)) ∧
    ∀ limit t, (∀ d : UInt32, Value.Text limit t (.number (endInteger true d.toNat)) ↔
        t = (toString d).toList) ∧
      ∀ p, Value.Text limit t (integerValue p) ↔ t = (toString p).toList := by
  have texts := exists_text_of_element read data
  rw [← and_assoc, ← and_assoc, parse_eq_commandsOf read data]
  refine ⟨?_, fun limit t => ⟨fun d => Value.Text.delay_iff, fun p => Value.Text.integerValue_iff⟩⟩
  cases commands : commandsOf 0 elements with
  | ok cs =>
    have meant := means_of_commandsOf texts commands
    refine ⟨⟨⟨fun _ v hv => ?_, fun _ => ⟨⟨cs⟩, rfl⟩⟩, fun s h => ?_⟩, fun _ h => (by cases h)⟩
    · obtain ⟨i, hi, rfl⟩ := List.getElem_of_mem hv
      obtain ⟨e, written, -⟩ := meant.get hi (meant.length_eq ▸ hi)
      exact ⟨e, written⟩
    · obtain rfl := Except.ok.inj h
      exact meant
  | error error =>
    obtain ⟨before, v, after, cause, split, fine, refused, place⟩ :=
      first_of_commandsOf_of_texts texts commands
    refine ⟨⟨⟨fun h => ?_, fun tuples => ?_⟩, fun _ h => (by cases h)⟩, fun e h => ?_⟩
    · obtain ⟨_, parsed⟩ := h
      cases parsed
    · exact absurd (tuples v (by simp [split])) refused
    · obtain rfl := Except.error.inj h
      exact ⟨before, v, after, cause, split, fine, refused, Nat.zero_add before.length ▸ place⟩

/-- A script whose second element has too few parameters. -/
theorem parse_elements_of_two :
    let raw := "[1, ['f', 2]], [2, ['c', 1]],"
    let elements : List Value := [.list [integerValue 1, .list (instructionItems ("f", [2]))],
      .list [integerValue 2, .list (instructionItems ("c", [1]))]]
    let error : ScriptError := .invalidCommand 1 (.badCommand (.tooFewParams .rgb 1))
    (Value.ofText (normalize raw).toList = .ok (.object [(dataField, .list elements)]) ∧
      Script.parse raw = .error error) ∧
      ∃ before v after, elements = before ++ v :: after ∧ before.length = 1 ∧
        (∀ w ∈ before, IsTuple w) ∧ ¬IsTuple v := by
  intro raw elements error
  have read : Value.ofText (normalize raw).toList = .ok (.object [(dataField, .list elements)]) := by
    cbv
  have refused : Script.parse raw = .error error := by cbv
  obtain ⟨before, v, after, cause, split, fine, bad, place⟩ :=
    (parse_elements read rfl).2.2.1 error refused
  have second : before.length = 1 := (ScriptError.invalidCommand.inj place).1.symm
  exact ⟨⟨read, refused⟩, before, v, after, split, second, fine, bad⟩

end Script

end Lightshow
