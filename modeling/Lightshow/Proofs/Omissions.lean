/-
Leaving things out of a configuration.

Whatever is left out of a configuration that was written down has its usual value when it is read again,
everything else has the value that was written, and what stands there under other names makes no
difference.  The two readers go different ways: JSON text is read front to back, into a draft of the
record, while a YAML document is asked for each name.

* `Config.spells_remains` -- what remains of a written configuration spells it without the rest;
* `Config.Spells.accepts` -- JSON text that spells a configuration is read as that;
* `Config.Spells.ofDocument?` -- and so is a YAML document;
* `Config.reads_without` -- both, from the whole text of a file on.
-/
import Mathlib
import Lightshow.Proofs.Settings

namespace Lightshow

open Json (Value Shape Fields Blank under)
open Yaml (Document Node)

/-! ### Reading JSON -/

section

variable {parts : List (String × List Char)} {name : String} {left : Bool}

/-- A field is awaited by what is told of it, unless that is left out. -/
theorem Told.awaits {α : Type} {spelt : List Char → α → Prop} {value : Option α} {s : Shape}
    {data : Option s.Data} (h : Told spelt parts name (if left then none else value))
    (absent : value = none → data = none)
    (accepts : ∀ {t a}, value = some a → spelt t a → ∃ b, data = some b ∧ s.Accepts t b) :
    s.Awaits (under name parts) none (if left then none else data) := by
  rcases h.cases with ⟨out, nowhere⟩ | ⟨rfl, t, a, given, only, spells⟩
  · have none : (if left then none else data) = none := by
      rcases out with rfl | out
      · rfl
      · rw [absent out, ite_self]
    rw [nowhere, none]
    exact .settled _
  · obtain ⟨b, rfl, here⟩ := accepts given spells
    rw [only]
    exact .one here

/-- A setting is awaited as the data whose value is written for it. -/
theorem Told.awaits_leaf {value : Option Value} {s : Shape} {data : Option s.Data}
    (h : Told Json.Leaf parts name (if left then none else value)) (written : value = data.map s.toValue)
    (found : ∀ a, s.ofFound (s.toValue a).found = .ok a) :
    s.Awaits (under name parts) none (if left then none else data) := by
  refine h.awaits (fun none => Option.map_eq_none_iff.mp (written.symm.trans none)) ?_
  intro t v given leaf
  obtain ⟨a, rfl, rfl⟩ := Option.map_eq_some_iff.mp (written.symm.trans given)
  exact ⟨a, rfl, leaf.accepts (found a)⟩

end

theorem Json.Shape.ofFound_natural (n : Fin (Nat.pow 2 64)) :
    (Shape.natural 64).ofFound ((Shape.natural 64).toValue n).found = .ok n := by
  have word : n.val.toUInt64.toNat = n.val := UInt64.toNat_ofNat_of_lt' n.isLt
  change naturalOf 64 (.natural n.val.toUInt64) = .ok n
  rw [naturalOf, dif_pos (Nat.lt_of_le_of_lt word.le n.isLt)]
  exact congrArg Except.ok (Fin.ext word)

theorem Json.Shape.some_natural (n : UInt64) : some (Value.number (.natural n)) =
    (some n.toFin : Option (Shape.natural 64).Data).map (Shape.natural 64).toValue :=
  congrArg some (toValue_natural n).symm

theorem Json.Shape.ofFound_text (s : Option String) :
    (Shape.nullable .text).ofFound ((Shape.nullable .text).toValue s).found = .ok s := by
  cases s <;> rfl

theorem Driver.ofFound_shape (d : Driver.shape.Data) :
    Driver.shape.ofFound (Driver.shape.toValue d).found = .ok d :=
  dif_pos d.property

/-- The data of a bulb section without what is left out. -/
def BulbConfig.given (c : BulbConfig) (left : Setting → Bool) : BulbConfig.shape.Data :=
  (if left .driver then none else some c.driver.toData,
    if left .bridge then none else c.bridge.map some,
    if left .username then none else c.username.map some,
    if left .timeout then none else some c.timeout.toFin, ())

/-- The data of a playback section without what is left out. -/
def PlaybackConfig.given (c : PlaybackConfig) (left : Setting → Bool) : PlaybackConfig.shape.Data :=
  (if left .backoffInitial then none else some c.backoffInitial.toFin,
    if left .backoffMax then none else some c.backoffMax.toFin, ())

theorem BulbConfig.ofData_given (c : BulbConfig) (left : Setting → Bool) :
    ofData (c.given left) = c.without left := by
  obtain ⟨driver, bridge, username, timeout⟩ := c
  rw [given, ofData, without]
  congr 1
  · cases left .driver
    · exact Driver.ofData_toData driver
    · rfl
  · cases left .bridge <;> cases bridge <;> rfl
  · cases left .username <;> cases username <;> rfl
  · cases left .timeout <;> rfl

theorem PlaybackConfig.ofData_given (c : PlaybackConfig) (left : Setting → Bool) :
    ofData (c.given left) = c.without left := by
  rw [given, ofData, without]
  congr 1
  · cases left .backoffInitial <;> rfl
  · cases left .backoffMax <;> rfl

namespace Config

variable {c : Config} {o : Omission} {left : Setting → Bool} {t : List Char}

theorem accepts_bulb (h : c.SpellsSection .json left .bulb t) :
    BulbConfig.shape.Accepts t (c.bulb.given left) := by
  obtain ⟨parts, ⟨u, rfl, items⟩, told⟩ := h
  have text (given : Option String) :
      given.map Value.text = (given.map some).map (Shape.nullable .text).toValue := by
    rw [Option.map_map]
    rfl
  have driver : Driver.shape.Awaits (under "driver" parts) none
      (if left .driver then none else some c.bulb.driver.toData) :=
    (told .driver rfl).awaits_leaf (c.written_eq .driver) Driver.ofFound_shape
  have bridge := (told .bridge rfl).awaits_leaf ((c.written_eq .bridge).trans (text c.bulb.bridge))
    Shape.ofFound_text
  have username := (told .username rfl).awaits_leaf
    ((c.written_eq .username).trans (text c.bulb.username)) Shape.ofFound_text
  have timeout := (told .timeout rfl).awaits_leaf
    ((c.written_eq .timeout).trans (Shape.some_natural c.bulb.timeout)) Shape.ofFound_natural
  refine Fields.accepts (by decide) items (c.bulb.given left) ?_ rfl
  exact ⟨driver, bridge, username, timeout, trivial⟩

theorem accepts_playback (h : c.SpellsSection .json left .playback t) :
    PlaybackConfig.shape.Accepts t (c.playback.given left) := by
  obtain ⟨parts, ⟨u, rfl, items⟩, told⟩ := h
  have initial := (told .backoffInitial rfl).awaits_leaf ((c.written_eq .backoffInitial).trans
    (Shape.some_natural c.playback.backoffInitial)) Shape.ofFound_natural
  have max := (told .backoffMax rfl).awaits_leaf ((c.written_eq .backoffMax).trans
    (Shape.some_natural c.playback.backoffMax)) Shape.ofFound_natural
  refine Fields.accepts (by decide) items (c.playback.given left) ?_ rfl
  exact ⟨initial, max, trivial⟩

/-- The data of a configuration without what is left out. -/
def given (c : Config) (o : Omission) : shape.Data :=
  (if o.sections .bulb then none else some (c.bulb.given o.settings),
    if o.sections .playback then none else some (c.playback.given o.settings), ())

theorem ofData_given (c : Config) (o : Omission) : ofData (c.given o) = c.without o := by
  rw [given, ofData, without]
  congr 1
  · cases o.sections .bulb
    · exact c.bulb.ofData_given o.settings
    · rfl
  · cases o.sections .playback
    · exact c.playback.ofData_given o.settings
    · rfl

theorem Spells.accepts (h : c.Spells .json o t) : shape.Accepts t (c.given o) := by
  obtain ⟨parts, ⟨u, rfl, items⟩, told⟩ := h
  have bulb : BulbConfig.shape.Awaits (under "bulb" parts) none
      (if o.sections .bulb then none else some (c.bulb.given o.settings)) :=
    (told .bulb).awaits nofun fun same h => ⟨_, rfl, accepts_bulb (Option.some.inj same ▸ h)⟩
  have playback : PlaybackConfig.shape.Awaits (under "playback" parts) none
      (if o.sections .playback then none else some (c.playback.given o.settings)) :=
    (told .playback).awaits nofun fun same h => ⟨_, rfl, accepts_playback (Option.some.inj same ▸ h)⟩
  refine Fields.accepts (by decide) items (c.given o) ?_ rfl
  exact ⟨bulb, playback, trivial⟩

end Config

/-! ### Writing JSON -/

namespace Json

/-- What is written for an object has the parts that are written for its fields. -/
theorem object_write {fields : List (String × Value)}
    (texts : ∀ f ∈ fields, ∃ limit, Value.Text limit f.2.write.toList f.2) :
    Medium.json.object (Value.object fields).write.toList
      (fields.map fun f => (f.1, f.2.write.toList)) := by
  refine ⟨innerText fields, write_object_inner fields, ?_⟩
  refine items_innerText (fun v => v.write.toList) fun f hf => ⟨rfl, ?_⟩
  obtain ⟨limit, text⟩ := texts f hf
  exact ⟨limit, f.2, text⟩

/-- What is told of a field is what was written for it. -/
theorem told_write {fields : List (String × Value)} (ordered : Ordered fields) {name : String}
    {α : Type} {spelt : List Char → α → Prop} {value : Option α}
    (spells : Option.Rel (fun v a => spelt v.write.toList a) ((Value.object fields).field? name) value) :
    Told spelt (fields.map fun f => (f.1, f.2.write.toList)) name value := by
  have parts := under_ordered ordered (fun v => v.write.toList) name
  generalize (Value.object fields).field? name = found at parts spells
  cases spells with
  | none => exact parts
  | some here => exact ⟨_, parts, here⟩

end Json

namespace Config

variable (c : Config)

/-- The fields that are written for a section. -/
def entries (s : Section) : List (String × Value) :=
  match s with
  | .bulb => Fields.toEntries _ c.bulb.toData
  | .playback => Fields.toEntries _ c.playback.toData

theorem leaf_entry (s : Section) : ∀ f ∈ c.entries s, Json.Leaf f.2.write.toList f.2 := by
  have natural (n : Fin (Nat.pow 2 64)) :
      Json.Leaf ((Shape.natural 64).toValue n).write.toList ((Shape.natural 64).toValue n) :=
    Json.leaf_natural n.val.toUInt64
  have text (given : Option String) : Json.Leaf
      ((Shape.nullable .text).toValue given).write.toList ((Shape.nullable .text).toValue given) := by
    cases given with
    | none => exact .null
    | some t => exact Json.leaf_text t
  intro f hf
  cases s with
  | bulb =>
    change f ∈ (Fields.cons "driver" .optional Driver.shape _).toEntries
      (some c.bulb.driver.toData, _) at hf
    rcases Fields.mem_toEntries hf with ⟨name, -, rfl⟩ | hf
    · exact Json.leaf_text name.val
    rcases Fields.mem_toEntries hf with ⟨given, -, rfl⟩ | hf
    · exact text given
    rcases Fields.mem_toEntries hf with ⟨given, -, rfl⟩ | hf
    · exact text given
    rcases Fields.mem_toEntries hf with ⟨n, -, rfl⟩ | hf
    · exact natural n
    · cases hf
  | playback =>
    change f ∈ (Fields.cons "backoff_initial_secs" .optional (.natural 64) _).toEntries
      (some c.playback.backoffInitial.toFin, _) at hf
    rcases Fields.mem_toEntries hf with ⟨n, -, rfl⟩ | hf
    · exact natural n
    rcases Fields.mem_toEntries hf with ⟨n, -, rfl⟩ | hf
    · exact natural n
    · cases hf

theorem ordered_entries (s : Section) : Json.Ordered (c.entries s) := by
  cases s
  all_goals exact Fields.ordered_toEntries _

theorem field?_entries (s : Section) :
    (shape.toValue c.toData).field? s.name = some (.object (c.entries s)) :=
  (c.field?_section s).trans (by cases s <;> rfl)

/-- What remains of a section spells it without what is left out. -/
theorem spellsSection_remains (o : Omission) (s : Section) : c.SpellsSection .json o.settings s
    ((Value.object (c.entries s)).dropFields o.settingNames).write.toList := by
  refine ⟨_, Json.object_write fun f hf => ⟨0, c.leaf_entry s f (List.mem_of_mem_filter hf)⟩, ?_⟩
  rintro t rfl
  have found : ((Value.object (c.entries t.within)).dropFields o.settingNames).field? t.name =
      if o.settings t then none else c.written t := by
    rw [Value.field?_dropFields, Config.written, c.field?_entries, Option.bind_some]
    simp only [Omission.mem_settingNames]
  refine Json.told_write ((c.ordered_entries t.within).filter _) ?_
  rw [← found, Value.dropFields]
  cases here : (Value.object ((c.entries t.within).filter _)).field? t.name with
  | none => exact .none
  | some v => exact .some (c.leaf_entry _ _ (List.mem_of_mem_filter (Json.mem_of_field? here)))

/-- What remains of a written configuration spells it without what is left out. -/
theorem spells_remains (o : Omission) : c.Spells .json o (c.remains o).write.toList := by
  have section_of {f : String × Value} (hf : f ∈ Fields.toEntries _ c.toData) :
      ∃ s, f.2 = Value.object (c.entries s) := by
    change f ∈ (Fields.cons "bulb" .optional BulbConfig.shape _).toEntries
      (some c.bulb.toData, _) at hf
    rcases Fields.mem_toEntries hf with ⟨_, ⟨⟩, rfl⟩ | hf
    · exact ⟨.bulb, rfl⟩
    rcases Fields.mem_toEntries hf with ⟨_, ⟨⟩, rfl⟩ | hf
    · exact ⟨.playback, rfl⟩
    · cases hf
  have ordered := ((Fields.ordered_toEntries c.toData).map (·.dropFields o.settingNames)).filter
    fun f => f.1 ∉ o.sectionNames
  have found (s : Section) : (c.remains o).field? s.name = if o.sections s then none else
      some ((Value.object (c.entries s)).dropFields o.settingNames) := by
    rw [remains, Value.field?_dropFields, Value.field?_mapFields, c.field?_entries]
    simp only [Omission.mem_sectionNames, Option.map_some]
  refine ⟨_, Json.object_write fun f hf => ?_, fun s => ?_⟩
  · obtain ⟨g, hg, rfl⟩ := List.mem_map.mp (List.mem_of_mem_filter hf)
    obtain ⟨s, same⟩ := section_of hg
    rw [same]
    exact ⟨1, Json.text_object ((c.ordered_entries s).filter _) fun g hg =>
      c.leaf_entry s g (List.mem_of_mem_filter hg)⟩
  · refine Json.told_write ordered ?_
    change Option.Rel _ ((c.remains o).field? s.name) _
    rw [found]
    cases o.sections s with
    | true => exact .none
    | false => exact .some (c.spellsSection_remains o s)

end Config

/-! ### Reading YAML -/

/-- Decimal digits spell the number that they were written for. -/
theorem Numeral.number?_toDigits (n : Nat) : number? 10 (Nat.toDigits 10 n) = some n := by
  have run (ds : List Char) (m : Nat) (digits : ∀ c ∈ ds, c.isDigit = true) :
      ds.foldl (fun n? c => do return (← n?) * 10 + (← digit? 10 c)) (some m) =
        some (Nat.ofDigitChars 10 ds m) := by
    induction ds generalizing m with
    | nil => rfl
    | cons c ds ih =>
      obtain ⟨first, others⟩ := List.forall_mem_cons.mp digits
      have counts : digit? 10 c = some (c.toNat - 48) := by
        rw [digit?, if_pos first]
        exact Option.filter_eq_some_iff.mpr ⟨rfl, decide_eq_true (Json.digitValue_lt first)⟩
      rw [List.foldl_cons, Nat.ofDigitChars_cons, Nat.mul_comm, counts]
      exact ih _ others
  have digits : ∀ c ∈ Nat.toDigits 10 n, c.isDigit = true := fun c hc =>
    Nat.isDigit_of_mem_toDigits (by decide) (by decide) hc
  rw [number?, run _ 0 digits, Nat.ofDigitChars_ten_toDigits]

namespace Yaml.Document

theorem naturalText?_toString (k : UInt64) : naturalText? (toString k.toNat) = some k := by
  have digits : ∀ c ∈ Nat.toDigits 10 k.toNat, c.isDigit = true := fun c hc =>
    Nat.isDigit_of_mem_toDigits (by decide) (by decide) hc
  have spelled : naturalOf? 10 (Nat.toDigits 10 k.toNat) = some k := by
    have small : k.toNat < 1 <<< 64 := k.toNat_lt
    have some_digits : (Nat.toDigits 10 k.toNat).isEmpty = false :=
      List.isEmpty_eq_false_iff.mpr Nat.toDigits_ne_nil
    rw [naturalOf?, some_digits, Numeral.number?_toDigits, Option.filter_some,
      if_pos (decide_eq_true small)]
    exact congrArg some UInt64.ofNat_toNat
  unfold naturalText?
  rw [Json.toList_toString_nat]
  extract_lets unsigned
  have same : unsigned = Nat.toDigits 10 k.toNat := by
    dsimp only [unsigned]
    split
    case h_1 plus => exact absurd (digits '+' (by rw [plus]; simp)) (by decide)
    case h_2 => rfl
  clear_value unsigned
  subst same
  split
  case h_1 hex => exact absurd (digits 'x' (by rw [hex]; simp)) (by decide)
  case h_2 octal => exact absurd (digits 'o' (by rw [octal]; simp)) (by decide)
  case h_3 binary => exact absurd (digits 'b' (by rw [binary]; simp)) (by decide)
  case h_4 alone =>
    obtain ⟨zero, -⟩ := Json.eq_zero_of_toDigits alone
    exact congrArg some (UInt64.toNat_inj.mp zero.symm)
  case h_5 more leading => exact absurd (Json.eq_zero_of_toDigits leading).2 more
  case h_6 => exact spelled

variable {d : Document} {n : Node} {parts : List (String × Node)}

theorem fields?_of_object (h : (Medium.yaml d).object n parts) : d.fields? n = some parts := by
  obtain ⟨anchor, tag, pairs, mapping, named⟩ := h
  rw [fields?, mapping]
  dsimp only
  clear mapping
  induction named with
  | nil => rfl
  | cons pair _ ih =>
    obtain ⟨text, same⟩ := pair
    rw [List.mapM_cons, ih, text, same]
    rfl

/-- A field of a record depends on what stands under its name. -/
theorem fieldOr?_eq {α : Type} (name : String) (read : Node → Option α) (default : α)
    (parts : List (String × Node)) : fieldOr? name read default parts = match under name parts with
      | [] => some default
      | [n] => read n
      | _ => none := by
  rw [fieldOr?, under]
  generalize parts.filter (·.1 = name) = found
  rcases found with _ | ⟨⟨_, n⟩, _ | _⟩ <;> rfl

theorem optionalText?_leaf {s : String} (h : (Medium.yaml d).leaf n (.text s)) :
    d.optionalText? n = some (some s) := by
  obtain ⟨anchor, style, scalar, visible⟩ := h
  rw [optionalText?, scalar]
  dsimp only
  by_cases plain : style = .plain
  · obtain ⟨some_s, word⟩ := visible plain
    rw [if_neg (not_not.mpr plain), if_neg nofun, if_neg (by simp [some_s, word])]
  · rw [if_pos plain]

theorem natural?_leaf {k : UInt64} (h : (Medium.yaml d).leaf n (.number (.natural k))) :
    d.natural? n = some k := by
  obtain ⟨anchor, scalar⟩ := h
  rw [natural?, scalar]
  dsimp only
  rw [if_pos (.inl rfl), naturalText?_toString]

theorem choice?_leaf {s : String} {names : List String} (known : s ∈ names)
    (h : (Medium.yaml d).leaf n (.text s)) : d.choice? names n = some s := by
  obtain ⟨anchor, style, scalar, -⟩ := h
  rw [choice?, scalar]
  dsimp only
  rw [Option.bind_none]
  dsimp only
  rw [if_pos (List.contains_iff_mem.mpr known)]

/-- A field is read as what is told of it, and has its default if that is left out. -/
theorem fieldOr?_of_told {α β : Type} {spelt : Node → β → Prop} {name : String}
    {read : Node → Option α} {default given : α} {left : Bool} {value : Option β}
    (h : Told spelt parts name (if left then none else value))
    (absent : value = none → given = default)
    (reads : ∀ {n b}, value = some b → spelt n b → read n = some given) :
    fieldOr? name read default parts = some (if left then default else given) := by
  rw [fieldOr?_eq]
  rcases h.cases with ⟨out, nowhere⟩ | ⟨rfl, n, b, told, only, spells⟩
  · rw [nowhere]
    rcases out with rfl | out
    · rfl
    · rw [absent out, ite_self]
  · rw [only]
    exact reads told spells

end Yaml.Document

namespace Config

variable {c : Config} {o : Omission} {left : Setting → Bool} {d : Document} {n : Node}
  {parts : List (String × Node)}

theorem fieldOr?_natural {t : Setting} {k usual : UInt64}
    (written : c.written t = some (.number (.natural k)))
    (h : Told (Medium.yaml d).leaf parts t.name (if left t then none else c.written t)) :
    Document.fieldOr? t.name d.natural? usual parts = some (if left t then usual else k) := by
  refine Document.fieldOr?_of_told h (fun none => nomatch written.symm.trans none) ?_
  intro n v same leaf
  obtain rfl := Option.some.inj (written.symm.trans same)
  exact Document.natural?_leaf leaf

theorem fieldOr?_text {t : Setting} {given : Option String} (written : c.written t = given.map .text)
    (h : Told (Medium.yaml d).leaf parts t.name (if left t then none else c.written t)) :
    Document.fieldOr? t.name d.optionalText? none parts = some (if left t then none else given) := by
  refine Document.fieldOr?_of_told h (fun none => ?_) ?_
  · exact Option.map_eq_none_iff.mp (written.symm.trans none)
  · intro n v same leaf
    obtain ⟨s, rfl, rfl⟩ := Option.map_eq_some_iff.mp (written.symm.trans same)
    exact Document.optionalText?_leaf leaf

theorem ofNode?_bulb (h : c.SpellsSection (.yaml d) left .bulb n) :
    BulbConfig.ofNode? d n = some (c.bulb.without left) := by
  obtain ⟨parts, object, told⟩ := h
  have driver : Document.fieldOr? "driver"
      (fun n => (d.choice? Driver.names n).bind Driver.ofName?) BulbConfig.usual.driver parts =
        some (if left .driver then BulbConfig.usual.driver else c.bulb.driver) := by
    refine Document.fieldOr?_of_told (told .driver rfl)
      (fun none => nomatch (c.written_eq .driver).symm.trans none) ?_
    intro n v same leaf
    obtain rfl := Option.some.inj ((c.written_eq .driver).symm.trans same)
    rw [Document.choice?_leaf (by cases c.bulb.driver <;> simp [Driver.names, Driver.name]) leaf]
    exact Driver.ofName?_name c.bulb.driver
  have bridge : Document.fieldOr? "bridge" d.optionalText? BulbConfig.usual.bridge parts =
      some (if left .bridge then BulbConfig.usual.bridge else c.bulb.bridge) :=
    fieldOr?_text (c.written_eq .bridge) (told .bridge rfl)
  have username : Document.fieldOr? "username" d.optionalText? BulbConfig.usual.username parts =
      some (if left .username then BulbConfig.usual.username else c.bulb.username) :=
    fieldOr?_text (c.written_eq .username) (told .username rfl)
  have timeout : Document.fieldOr? "timeout_secs" d.natural? BulbConfig.usual.timeout parts =
      some (if left .timeout then BulbConfig.usual.timeout else c.bulb.timeout) :=
    fieldOr?_natural (c.written_eq .timeout) (told .timeout rfl)
  rw [BulbConfig.ofNode?, Document.fields?_of_object object]
  simp only [Option.bind_eq_bind, Option.bind_some, driver, bridge, username, timeout]
  rfl

theorem ofNode?_playback (h : c.SpellsSection (.yaml d) left .playback n) :
    PlaybackConfig.ofNode? d n = some (c.playback.without left) := by
  obtain ⟨parts, object, told⟩ := h
  have initial : Document.fieldOr? "backoff_initial_secs" d.natural?
      PlaybackConfig.usual.backoffInitial parts = some (if left .backoffInitial then
        PlaybackConfig.usual.backoffInitial else c.playback.backoffInitial) :=
    fieldOr?_natural (c.written_eq .backoffInitial) (told .backoffInitial rfl)
  have max : Document.fieldOr? "backoff_max_secs" d.natural? PlaybackConfig.usual.backoffMax parts =
      some (if left .backoffMax then PlaybackConfig.usual.backoffMax else c.playback.backoffMax) :=
    fieldOr?_natural (c.written_eq .backoffMax) (told .backoffMax rfl)
  rw [PlaybackConfig.ofNode?, Document.fields?_of_object object]
  simp only [Option.bind_eq_bind, Option.bind_some, initial, max]
  rfl

theorem Spells.ofDocument? (h : c.Spells (.yaml d) o n) (root : d.root = some n) :
    Config.ofDocument? d = some (c.without o) := by
  obtain ⟨parts, object, told⟩ := h
  have bulb : Document.fieldOr? "bulb" (BulbConfig.ofNode? d) .usual parts =
      some (if o.sections .bulb then .usual else c.bulb.without o.settings) :=
    Document.fieldOr?_of_told (told .bulb) nofun fun same h => ofNode?_bulb (Option.some.inj same ▸ h)
  have playback : Document.fieldOr? "playback" (PlaybackConfig.ofNode? d) .usual parts =
      some (if o.sections .playback then .usual else c.playback.without o.settings) :=
    Document.fieldOr?_of_told (told .playback) nofun fun same h =>
      ofNode?_playback (Option.some.inj same ▸ h)
  rw [Config.ofDocument?, root]
  simp only [Option.bind_eq_bind, Document.fields?_of_object object, Option.bind_some, bulb, playback]
  rfl

/-- **A configuration is read from everything that spells it.**  Reading the JSON text that is written
for a configuration gives it back.  When some sections and settings are taken out of what is written,
the same configuration is read from what remains, with usual values for exactly what was left out, and
so it is from every JSON text and every YAML file that spells it without them, whatever else stands
there under other names. -/
theorem reads_without (c : Config) :
    (shape.ofText (shape.toValue c.toData).write.toList).map ofData = .ok c ∧
    ∀ o : Omission,
      (shape.ofText (c.remains o).write.toList).map ofData = .ok (c.without o) ∧
      (∀ g t h, Blank g → Blank h → c.Spells .json o t →
        (shape.ofText (g ++ (t ++ h))).map ofData = .ok (c.without o)) ∧
      ∀ content path d n, (Text.trim content).isEmpty = false → Document.ofText? content = some d →
        d.root = some n → c.Spells (.yaml d) o n → ofYaml content path = .ok (c.without o) := by
  have json {o : Omission} {g t h : List Char} (blank : Blank g) (blank' : Blank h)
      (spells : c.Spells .json o t) :
      (shape.ofText (g ++ (t ++ h))).map ofData = .ok (c.without o) := by
    rw [spells.accepts.ofText blank blank']
    exact congrArg Except.ok (c.ofData_given o)
  have written (o : Omission) :
      (shape.ofText (c.remains o).write.toList).map ofData = .ok (c.without o) := by
    have remaining := json .nil .nil (c.spells_remains o)
    rw [List.nil_append, List.append_nil] at remaining
    exact remaining
  refine ⟨?_, fun o => ⟨written o, fun g t h blank blank' => json blank blank', ?_⟩⟩
  · have whole := written .nothing
    rw [remains_nothing, without_nothing] at whole
    exact whole
  · intro content path d n some_text parsed root spells
    rw [ofYaml, if_neg (by rw [some_text]; exact Bool.false_ne_true), parsed, Option.bind_some,
      spells.ofDocument? root]

-- the scanner goes through the file character by character
set_option maxRecDepth 2000 in
/-- A timeout and the whole section for playback are left out, and there are other names beside the
others.  In the file one text stands in double quotes with escapes, and another in single quotes. -/
theorem reads_without_playback :
    let c : Config := ⟨⟨.simulated, some "a\té", some "it's", 7⟩, ⟨2, 9⟩⟩
    let o : Omission := ⟨fun s => s = .playback, fun t => t = .timeout⟩
    let usual : Config := ⟨⟨.simulated, some "a\té", some "it's", 5⟩, ⟨1, 30⟩⟩
    let text := "\x7b\"bulb\":\x7b\"bridge\":\"a\\té\",\"driver\":\"simulated\",\"username\":\"it's\"," ++
      "\"y\":null\x7d,\"x\":true\x7d"
    let file := "bulb:\n  bridge: \"a\\t\\u00e9\"\n  driver: simulated\n  username: 'it''s'\n" ++
      "  y: ~\nx: true\n"
    c.Spells .json o text.toList ∧
    (shape.ofText (text.toList ++ ['\n'])).map ofData = .ok usual ∧
    ∃ d n, Document.ofText? file = some d ∧ d.root = some n ∧ c.Spells (.yaml d) o n ∧
      ofYaml file "show.yaml" = .ok usual := by
  intro c o usual text file
  have json : c.Spells .json o text.toList := by
    let settings : List (String × Value) :=
      [("bridge", .text "a\té"), ("driver", .text "simulated"), ("username", .text "it's"), ("y", .null)]
    have leaves : ∀ f ∈ settings, Json.Leaf f.2.write.toList f.2 := by
      simp only [settings, List.forall_mem_cons]
      exact ⟨Json.leaf_text "a\té", Json.leaf_text "simulated", Json.leaf_text "it's", .null, nofun⟩
    have texts : ∀ f ∈ [("bulb", Value.object settings), ("x", .bool true)],
        ∃ limit, Value.Text limit f.2.write.toList f.2 := by
      simp only [List.forall_mem_cons]
      have ordered : Json.Ordered settings := by
        rw [Json.Ordered]
        decide +kernel
      exact ⟨⟨1, Json.text_object ordered leaves⟩, ⟨0, .yes⟩, nofun⟩
    have whole := Json.object_write texts
    have written : (Value.object [("bulb", Value.object settings), ("x", .bool true)]).write.toList =
      text.toList := by decide +kernel
    rw [written] at whole
    refine ⟨_, whole, fun s => ?_⟩
    cases s with
    | playback => rfl
    | bulb =>
      refine ⟨_, rfl, _, Json.object_write fun f hf => ⟨0, leaves f hf⟩, fun t ht => ?_⟩
      cases t with
      | driver => exact ⟨_, rfl, Json.leaf_text "simulated"⟩
      | bridge => exact ⟨_, rfl, Json.leaf_text "a\té"⟩
      | username => exact ⟨_, rfl, Json.leaf_text "it's"⟩
      | timeout => rfl
      | backoffInitial => cases ht
      | backoffMax => cases ht
  refine ⟨json, ((reads_without c).2 o).2.1 [] text.toList ['\n'] .nil (by decide) json, ?_⟩
  let word (s : String) : Node := .scalar none none .plain s
  let root : Node := .mapping none none [(word "bulb", .mapping none none
    [(word "bridge", .scalar none none .doubleQuoted "a\té"), (word "driver", word "simulated"),
      (word "username", .scalar none none .singleQuoted "it's"), (word "y", word "~")]),
    (word "x", word "true")]
  have parsed : Document.ofText? file = some ⟨some root⟩ := by cbv
  have yaml : c.Spells (.yaml ⟨some root⟩) o root := by
    refine ⟨[("bulb", _), ("x", _)], ⟨none, none, _, rfl,
      .cons ⟨rfl, rfl⟩ (.cons ⟨rfl, rfl⟩ .nil)⟩, fun s => ?_⟩
    cases s with
    | playback => rfl
    | bulb =>
      refine ⟨_, rfl, [("bridge", _), ("driver", _), ("username", _), ("y", _)], ⟨none, none, _, rfl,
        .cons ⟨rfl, rfl⟩ (.cons ⟨rfl, rfl⟩ (.cons ⟨rfl, rfl⟩ (.cons ⟨rfl, rfl⟩ .nil)))⟩, fun t ht => ?_⟩
      cases t with
      | driver => exact ⟨_, rfl, none, .plain, rfl, fun _ => by decide⟩
      | bridge => exact ⟨_, rfl, none, .doubleQuoted, rfl, fun plain => absurd plain (by decide)⟩
      | username => exact ⟨_, rfl, none, .singleQuoted, rfl, fun plain => absurd plain (by decide)⟩
      | timeout => rfl
      | backoffInitial => cases ht
      | backoffMax => cases ht
  refine ⟨_, root, parsed, rfl, yaml, ?_⟩
  exact ((reads_without c).2 o).2.2 file "show.yaml" ⟨some root⟩ root (by decide +kernel) parsed rfl yaml

end Config

end Lightshow
