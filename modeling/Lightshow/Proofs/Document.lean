/-
The document that a script is read from.

The rewritten text stands as a list under one field of an object, and the reader takes that list
item by item.  What closes the list decides what else there is: behind the closing bracket that the
rewriting put there, nothing is left but the brace.

* `exists_items_of_parse` -- the items that are read of an accepted script;
* `parse_of_items` -- a script whose list is closed by the last bracket has a command for each item.
-/
import Lightshow.Proofs.Grammar
import Lightshow.Proofs.Rewriting
import Lightshow.Script
import Mathlib.Data.List.Forall2

namespace Lightshow.Script

open Json ScriptText

/-- Values with the commands that they are read as, in order. -/
def ReadAs (vs : List Value) (commands : List Command) : Prop :=
  List.Forall₂ (fun v c => Command.ofValue v = .ok c) vs commands

theorem commandsOf_eq_ok_iff {index : Nat} {vs : List Value} {commands : List Command} :
    commandsOf index vs = .ok commands ↔ ReadAs vs commands := by
  induction vs generalizing index commands with
  | nil => cases commands <;> simp [commandsOf, ReadAs]
  | cons v vs ih =>
    rw [commandsOf, ReadAs, List.forall₂_cons_left_iff]
    cases first : Command.ofValue v with
    | error cause => simp
    | ok command =>
      dsimp only
      cases others : commandsOf (index + 1) vs with
      | error e =>
        constructor
        · exact nofun
        · rintro ⟨_, cs, -, h, -⟩
          exact absurd (others.symm.trans (ih.mpr h)) nofun
      | ok cs =>
        constructor
        · rintro ⟨⟩
          exact ⟨command, cs, rfl, ih.mp others, rfl⟩
        · rintro ⟨_, cs', ⟨⟩, h, rfl⟩
          rw [Except.ok.inj (others.symm.trans (ih.mpr h))]

variable {raw : String} {s : Script} {cs : List Char} {vs : List Value}

/-- The nesting that is left for an item of the list. -/
def itemLimit : Nat := 125

/-- The document is read as the list, and then as the fields behind it. -/
theorem taken_document (cs : List Char) :
    taken? (readValue nestingLimit ('\x7b' :: ' ' :: (fieldText ++ cs))) =
      (taken? (readItems (readValue itemLimit) true cs)).bind fun r =>
        (taken? (readFields (readValue (itemLimit + 1)) false (r.2.drop 1))).map fun f =>
          (.object (((dataField, .list r.1) :: f.1).foldl (fun o (k, v) => putField k v o) []),
            f.2.drop 1) := by
  have name : taken? (readString (fieldText.drop 1 ++ cs)) =
      some (['d', 'a', 't', 'a'], fieldText.drop 6 ++ cs) := by
    have quotes : Quotes ['d', 'a', 't', 'a'] ['d', 'a', 't', 'a'] := by
      repeat' first
        | exact .nil
        | refine .plain (by decide) (by decide) (by decide) ?_
    exact quotes.reads (fieldText.drop 6 ++ cs)
  have colon : left? (readColon (fieldText.drop 6 ++ cs)) = some (fieldText.drop 7 ++ cs) := by
    rw [left_readColon]
    rfl
  have list : taken? (readValue (itemLimit + 1) (fieldText.drop 7 ++ cs)) =
      (taken? (readItems (readValue itemLimit) true cs)).map fun r => (.list r.1, r.2.drop 1) := by
    have start : skipBlanks (fieldText.drop 7 ++ cs) = '[' :: ([' '] ++ cs) := rfl
    rw [taken_readValue_opening (.inl rfl) start, inner?, if_pos rfl,
      taken_readItems_blank (by decide)]
  have start : skipBlanks ('\x7b' :: ' ' :: (fieldText ++ cs)) = '\x7b' :: ' ' :: (fieldText ++ cs) :=
    rfl
  have field : more? (nextField? true (' ' :: (fieldText ++ cs))) =
      some (some (fieldText.drop 1 ++ cs)) := by
    have quote : skipBlanks (' ' :: (fieldText ++ cs)) = '"' :: (fieldText.drop 1 ++ cs) := rfl
    rw [more_nextField quote]
    rfl
  rw [taken_readValue_opening (.inr rfl) start]
  show (taken? (readFields (readValue (itemLimit + 1)) true (' ' :: (fieldText ++ cs)))).map _ = _
  rw [taken_readFields, field, Option.bind_some]
  dsimp only
  rw [name, Option.bind_some, colon, Option.bind_some, list]
  cases taken? (readItems (readValue itemLimit) true cs) with
  | none => rfl
  | some r =>
    rw [Option.map_some, Option.bind_some, Option.bind_some, Option.map_map]
    rfl

/-- Nothing but the closing brace is left. -/
theorem taken_readFields_end {limit : Nat} :
    taken? (readFields (readValue limit) false [' ', '\x7d']) = some ([], ['\x7d']) := by
  rw [taken_readFields, more_nextField (show skipBlanks [' ', '\x7d'] = ['\x7d'] from rfl), if_pos rfl]
  rfl

theorem ofDocument_singleton (vs : List Value) :
    ofDocument (.object [(dataField, .list vs)]) = (commandsOf 0 vs).map Script.mk := by
  have field : (Value.object [(dataField, .list vs)]).field? dataField = some (.list vs) := by
    rw [field?_cons, if_pos rfl]
  rw [ofDocument, field]
  dsimp only [Option.bind_some, Value.items?]
  cases commandsOf 0 vs <;> rfl

/-- A script is what its document says. -/
theorem parse_eq_ok_iff : Script.parse raw = .ok s ↔
    ∃ document, Value.ofText (normalize raw).toList = .ok document ∧ ofDocument document = .ok s := by
  rw [Script.parse]
  cases Value.ofText (normalize raw).toList with
  | error fault => exact ⟨nofun, fun ⟨_, read, _⟩ => absurd read nofun⟩
  | ok document => exact ⟨fun h => ⟨document, rfl, h⟩, fun ⟨_, read, h⟩ => Except.ok.inj read ▸ h⟩

/-- The items that are read of an accepted script; they are its commands if the last bracket closes
the list. -/
theorem exists_items_of_parse (h : Script.parse raw = .ok s)
    (whole : (normalize raw).toList = '\x7b' :: ' ' :: (fieldText ++ cs)) :
    ∃ vs rest, Reads (readItems (readValue itemLimit) true) cs vs (']' :: rest) ∧
      (rest = [' ', '\x7d'] → ReadAs vs s.commands) := by
  obtain ⟨document, read, h⟩ := parse_eq_ok_iff.mp h
  rw [whole] at read
  obtain ⟨rest, taken, -⟩ := Value.ofText_eq_ok_iff_reads.mp read
  rw [Reads, taken_document] at taken
  obtain ⟨⟨vs, left⟩, hvs, taken⟩ := Option.bind_eq_some_iff.mp taken
  obtain ⟨⟨fields, last⟩, hfields, same⟩ := Option.map_eq_some_iff.mp taken
  obtain ⟨rfl, rfl⟩ := Prod.mk.inj same
  obtain ⟨t, r, -, rfl, -⟩ := Items.of_reads (fun read => Value.Text.of_reads read) hvs
  refine ⟨vs, r, hvs, ?_⟩
  rintro rfl
  rw [List.drop_succ_cons, List.drop_zero, taken_readFields_end] at hfields
  obtain ⟨rfl, rfl⟩ := Prod.mk.inj (Option.some.inj hfields)
  have list : Except.ok s = (commandsOf 0 vs).map Script.mk := h.symm.trans (ofDocument_singleton vs)
  cases commands : commandsOf 0 vs with
  | error e =>
    rw [commands] at list
    cases list
  | ok cs =>
    rw [commands] at list
    rw [Except.ok.inj list]
    exact commandsOf_eq_ok_iff.mp commands

/-- A script whose list is closed by the last bracket has a command for each item. -/
theorem parse_of_items {commands : List Command}
    (items : Reads (readItems (readValue itemLimit) true) cs vs [']', ' ', '\x7d'])
    (whole : (normalize raw).toList = '\x7b' :: ' ' :: (fieldText ++ cs))
    (h : ReadAs vs commands) : Script.parse raw = .ok ⟨commands⟩ := by
  have document : Value.ofText (normalize raw).toList = .ok (.object [(dataField, .list vs)]) := by
    refine Value.ofText_eq_ok_iff_reads.mpr ⟨[], ?_, .nil⟩
    rw [whole, Reads, taken_document, items, Option.bind_some]
    dsimp only
    rw [List.drop_succ_cons, List.drop_zero, taken_readFields_end]
    rfl
  refine parse_eq_ok_iff.mpr ⟨_, document, ?_⟩
  rw [ofDocument_singleton, commandsOf_eq_ok_iff.mpr h]
  rfl

end Lightshow.Script
