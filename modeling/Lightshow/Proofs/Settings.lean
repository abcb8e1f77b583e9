/-
What spells a configuration.

A configuration is written section by section and setting by setting, and any of them may be left out.
JSON text and YAML documents do this alike, so what it means to spell a configuration is said once, for
any `Medium`: each section that is not left out stands once under its name, in it each setting that is
not left out stands once under its name, and under other names may stand anything.

* `Config.without` -- the configuration with usual values for what is left out;
* `Config.written`, `Config.written_eq` -- the value that is written for a setting;
* `Config.remains` -- what is written, less what is left out;
* `Config.Spells` -- what spells a configuration, without what is left out of it.
-/
import Lightshow.Config.Load
import Lightshow.Config.Shape
import Lightshow.Proofs.Written
import Mathlib.Data.List.Forall2

namespace Lightshow

open Json (Value Shape Fields Blank Items FieldText Part under)
open Yaml (Document Node)

/-! ### What is written -/

/-- The sections of a configuration. -/
inductive Section where
  | bulb
  | playback
  deriving DecidableEq, Repr

/-- Name of a section. -/
def Section.name : Section → String
  | .bulb => "bulb"
  | .playback => "playback"

/-- The section of a setting. -/
def Setting.within : Setting → Section
  | .driver | .bridge | .username | .timeout => .bulb
  | .backoffInitial | .backoffMax => .playback

/-- Name of a setting in its section. -/
def Setting.name : Setting → String
  | .driver => "driver"
  | .bridge => "bridge"
  | .username => "username"
  | .timeout => "timeout_secs"
  | .backoffInitial => "backoff_initial_secs"
  | .backoffMax => "backoff_max_secs"

theorem Section.name_injective : Function.Injective Section.name := by
  intro s s'
  cases s <;> cases s' <;> decide

theorem Setting.name_injective : Function.Injective Setting.name := by
  intro t t'
  cases t <;> cases t' <;> decide

/-- What is left out of a written configuration: whole sections, and single settings. -/
structure Omission where
  sections : Section → Bool
  settings : Setting → Bool

namespace Omission

/-- Nothing is left out. -/
def nothing : Omission := ⟨fun _ => false, fun _ => false⟩

/-- Names of the sections that are left out. -/
def sectionNames (o : Omission) : List String :=
  ([Section.bulb, .playback].filter o.sections).map Section.name

/-- Names of the settings that are left out. -/
def settingNames (o : Omission) : List String :=
  ([Setting.driver, .bridge, .username, .timeout, .backoffInitial, .backoffMax].filter
    o.settings).map Setting.name

theorem mem_sectionNames {o : Omission} {s : Section} : s.name ∈ o.sectionNames ↔ o.sections s = true := by
  rw [sectionNames, List.mem_map_of_injective Section.name_injective, List.mem_filter]
  exact and_iff_right (by cases s <;> decide)

theorem mem_settingNames {o : Omission} {t : Setting} : t.name ∈ o.settingNames ↔ o.settings t = true := by
  rw [settingNames, List.mem_map_of_injective Setting.name_injective, List.mem_filter]
  exact and_iff_right (by cases t <;> decide)

end Omission

/-- A bulb section in which what is left out has its usual value. -/
def BulbConfig.without (c : BulbConfig) (left : Setting → Bool) : BulbConfig where
  driver := if left .driver then usual.driver else c.driver
  bridge := if left .bridge then usual.bridge else c.bridge
  username := if left .username then usual.username else c.username
  timeout := if left .timeout then usual.timeout else c.timeout

/-- A playback section in which what is left out has its usual value. -/
def PlaybackConfig.without (c : PlaybackConfig) (left : Setting → Bool) : PlaybackConfig where
  backoffInitial := if left .backoffInitial then usual.backoffInitial else c.backoffInitial
  backoffMax := if left .backoffMax then usual.backoffMax else c.backoffMax

namespace Config

/-- A configuration in which what is left out has its usual value. -/
def without (c : Config) (o : Omission) : Config where
  bulb := if o.sections .bulb then .usual else c.bulb.without o.settings
  playback := if o.sections .playback then .usual else c.playback.without o.settings

@[simp] theorem without_nothing (c : Config) : c.without .nothing = c := rfl

/-- The value that is written for a setting; a text that is not there is not written either. -/
def written (c : Config) (t : Setting) : Option Value :=
  ((shape.toValue c.toData).field? t.within.name).bind (·.field? t.name)

/-- What is written for a configuration, and then less what is left out. -/
def remains (c : Config) (o : Omission) : Value :=
  ((shape.toValue c.toData).mapFields (·.dropFields o.settingNames)).dropFields o.sectionNames

@[simp] theorem remains_nothing (c : Config) : c.remains .nothing = shape.toValue c.toData := by
  have kept : (fun v : Value => v.dropFields []) = fun v => v := funext Value.dropFields_nil
  change ((shape.toValue c.toData).mapFields fun v => v.dropFields []).dropFields [] = _
  rw [kept, Value.dropFields_nil, Value.mapFields_id]

end Config

/-! ### What spells it -/

/-- A way of writing: what spells a single value, and what has parts under names. -/
structure Medium (ν : Type) where
  leaf : ν → Value → Prop
  object : ν → List (String × ν) → Prop

/-- JSON text. -/
def Medium.json : Medium (List Char) where
  leaf := Json.Leaf
  object t parts :=
    ∃ u, t = '\x7b' :: (u ++ ['\x7d']) ∧ Items Blank (FieldText Part) true u parts

/-- Nodes of a YAML document.  A plain text must not be one that stands for nothing. -/
def Medium.yaml (d : Document) : Medium Node where
  leaf n v := match v with
    | .text s => ∃ anchor style, d.followed n = .scalar anchor none style s ∧
        (style = .plain → s ≠ "" ∧ s ∉ Document.nullWords)
    | .number (.natural k) =>
      ∃ anchor, d.followed n = .scalar anchor none .plain (toString k.toNat)
    | _ => False
  object n parts := ∃ anchor tag pairs, d.followed n = .mapping anchor tag pairs ∧
    List.Forall₂ (fun pair part => d.text? pair.1 = some part.1 ∧ pair.2 = part.2) pairs parts

section

variable {ν : Type}

/-- What stands under a name: nothing if nothing is told, and else one part that spells it. -/
def Told {α : Type} (spelt : ν → α → Prop) (parts : List (String × ν)) (name : String) :
    Option α → Prop
  | none => under name parts = []
  | some a => ∃ n, under name parts = [n] ∧ spelt n a

theorem Told.cases {α : Type} {spelt : ν → α → Prop} {parts : List (String × ν)} {name : String}
    {left : Bool} {value : Option α} (h : Told spelt parts name (if left then none else value)) :
    (left = true ∨ value = none) ∧ under name parts = [] ∨
      left = false ∧ ∃ n a, value = some a ∧ under name parts = [n] ∧ spelt n a := by
  cases left with
  | true => exact .inl ⟨.inl rfl, h⟩
  | false =>
    cases value with
    | none => exact .inl ⟨.inr rfl, h⟩
    | some a =>
      obtain ⟨n, only, spelt⟩ := h
      exact .inr ⟨rfl, n, a, rfl, only, spelt⟩

namespace Config

/-- A section is spelled by its settings, but for those that are left out; under other names may stand
anything. -/
def SpellsSection (c : Config) (m : Medium ν) (left : Setting → Bool) (s : Section) (n : ν) : Prop :=
  ∃ parts, m.object n parts ∧ ∀ t : Setting, t.within = s →
    Told m.leaf parts t.name (if left t then none else c.written t)

/-- A configuration is spelled by its sections, but for what is left out; under other names may stand
anything. -/
def Spells (c : Config) (m : Medium ν) (o : Omission) (n : ν) : Prop :=
  ∃ parts, m.object n parts ∧ ∀ s : Section,
    Told (fun n s => c.SpellsSection m o.settings s n) parts s.name
      (if o.sections s then none else some s)

end Config

end

/-! ### The values of a written configuration -/

theorem Json.Shape.toValue_natural (n : UInt64) :
    (Shape.natural 64).toValue n.toFin = .number (.natural n) :=
  congrArg (fun k => Value.number (.natural k)) UInt64.ofNat_toNat

namespace Config

variable (c : Config)

theorem field?_section (s : Section) : (shape.toValue c.toData).field? s.name = some (match s with
    | .bulb => BulbConfig.shape.toValue c.bulb.toData
    | .playback => PlaybackConfig.shape.toValue c.playback.toData) := by
  refine (Fields.field?_toEntries c.toData).trans ?_
  cases s <;> rfl

theorem written_eq (t : Setting) : c.written t = match t with
    | .driver => some (.text c.bulb.driver.name)
    | .bridge => c.bulb.bridge.map .text
    | .username => c.bulb.username.map .text
    | .timeout => some (.number (.natural c.bulb.timeout))
    | .backoffInitial => some (.number (.natural c.playback.backoffInitial))
    | .backoffMax => some (.number (.natural c.playback.backoffMax)) := by
  rw [written, field?_section, Option.bind_some]
  cases t
  case driver => exact Fields.field?_toEntries c.bulb.toData
  case bridge =>
    refine (Fields.field?_toEntries c.bulb.toData).trans ?_
    obtain ⟨⟨driver, bridge, username, timeout⟩, playback⟩ := c
    cases bridge <;> rfl
  case username =>
    refine (Fields.field?_toEntries c.bulb.toData).trans ?_
    obtain ⟨⟨driver, bridge, username, timeout⟩, playback⟩ := c
    cases username <;> rfl
  case timeout =>
    refine (Fields.field?_toEntries c.bulb.toData).trans ?_
    exact congrArg some (Shape.toValue_natural c.bulb.timeout)
  case backoffInitial =>
    refine (Fields.field?_toEntries c.playback.toData).trans ?_
    exact congrArg some (Shape.toValue_natural c.playback.backoffInitial)
  case backoffMax =>
    refine (Fields.field?_toEntries c.playback.toData).trans ?_
    exact congrArg some (Shape.toValue_natural c.playback.backoffMax)

end Config

end Lightshow
