/-
Colours that are set step by step.

A bulb that has no call for a whole colour takes it in three steps: hue, saturation, brightness.  A bulb
that does have one takes it at once.  As long as nothing fails, either way leads to the same light: the
colours in between leave no trace on a simulated bulb, whose channels follow from the last of them, nor on
a bridge, which keeps each field apart.

* `Bridge.merge_merge`, `Json.putField_comm` -- changes that are merged one after the other;
* `Obeys` -- a network that carries out every change;
* `Network.noting` -- a network that keeps what it was asked;
* `stepwise_agrees` -- both ways, on a simulated bulb and on a bridge.
-/
import Lightshow.Proofs.Fading

namespace Lightshow

/-! ### A simulated bulb -/

/-- Each step sets the colour anew, so that the channels follow from the last one. -/
theorem Light.after_steps (l : Light) (c : Hsb) :
    ((l.after (.setHue c.hue)).after (.setSaturation c.saturation)).after
      (.setBrightness c.brightness) = l.after (.setHsb c) := rfl

namespace Simulated

/-- No call is going to fail. -/
structure Willing (b : Simulated) : Prop where
  calls : b.failingCalls = 0
  refusals : b.rejectedCalls = 0

theorem Willing.perform {b : Simulated} (h : b.Willing) (c : Call) :
    b.perform c = (.ok (b.light.reply c), { b with light := b.light.after c, calls := b.calls ++ [c] }) := by
  rw [Simulated.perform, if_neg (by simp [h.calls]), if_neg (by simp [h.refusals])]

/-- The light takes a colour step by step as it takes it at once. -/
theorem Willing.inSteps {b : Simulated} (h : b.Willing) (hsb : Hsb) :
    inSteps Simulated.perform (.setHsb hsb) b =
      (.ok (), { b with
        light := b.light.after (.setHsb hsb)
        calls := b.calls ++ [.setHue hsb.hue, .setSaturation hsb.saturation,
          .setBrightness hsb.brightness] }) := by
  have more (light : Light) (calls : List Call) : Willing { b with light, calls } :=
    ⟨h.calls, h.refusals⟩
  rw [Lightshow.inSteps, h.perform]
  dsimp only
  rw [(more _ _).perform]
  dsimp only
  rw [(more _ _).perform, Light.after_steps, List.append_assoc, List.append_assoc]
  rfl

end Simulated

/-! ### Fields -/

namespace Json

theorem putField_putField (name : String) (v w : Value) (fields : List (String × Value)) :
    putField name v (putField name w fields) = putField name v fields := by
  induction fields with
  | nil => simp [putField]
  | cons f fields ih =>
    rw [putField.eq_def name w]
    dsimp only
    split
    case isTrue same => simp [putField, same]
    case isFalse other =>
      split
      case isTrue before => simp [putField, other, before]
      case isFalse behind => simp [putField, other, behind, ih]

theorem putField_comm_of_lt {name other : String} (first : name < other) (v w : Value)
    (fields : List (String × Value)) :
    putField name v (putField other w fields) = putField other w (putField name v fields) := by
  have different : name ≠ other := fun h => String.lt_irrefl other (h ▸ first)
  have back : ¬ other < name := String.lt_asymm first
  induction fields with
  | nil => simp [putField, different, different.symm, first, back]
  | cons f fields ih =>
    obtain ⟨k, x⟩ := f
    by_cases same : name = k
    · subst same
      simp [putField, different.symm, back]
    by_cases before : name < k
    · -- the smaller name comes to the front, wherever the other one goes
      have put : ∀ rest, putField name v ((k, x) :: rest) = (name, v) :: (k, x) :: rest := fun rest => by
        simp [putField, same, before]
      rw [put]
      by_cases meets : other = k
      · subst meets
        simp [putField, different, different.symm, first, back]
      · by_cases between : other < k <;>
        simp [putField, different, different.symm, first, back, meets, between, same, before]
    · have behind : k < other := String.not_le.mp fun le =>
        String.not_le.mpr first (String.le_trans le (String.not_lt.mp before))
      have apart : other ≠ k := fun h => String.lt_irrefl k (h ▸ behind)
      simp [putField, same, before, apart, String.lt_asymm behind, ih]

/-- Fields of different names may be put in either order. -/
theorem putField_comm {name other : String} (different : name ≠ other) (v w : Value)
    (fields : List (String × Value)) :
    putField name v (putField other w fields) = putField other w (putField name v fields) := by
  by_cases first : name < other
  · exact putField_comm_of_lt first v w fields
  · have first : other < name := String.not_le.mp fun le =>
      different (String.le_antisymm le (String.not_lt.mp first))
    exact (putField_comm_of_lt first w v fields).symm

/-- A field with a name of its own may be put first or last. -/
theorem foldl_putField_concat {f : String × Value} {fields : List (String × Value)}
    (new : ∀ g ∈ fields, g.1 ≠ f.1) (state : List (String × Value)) :
    (fields ++ [f]).foldl (fun state (name, v) => putField name v state) state =
      (f :: fields).foldl (fun state (name, v) => putField name v state) state := by
  induction fields generalizing state with
  | nil => rfl
  | cons g fields ih =>
    obtain ⟨different, new⟩ := List.forall_mem_cons.mp new
    rw [List.cons_append, List.foldl_cons, ih new, List.foldl_cons, List.foldl_cons, List.foldl_cons]
    dsimp only
    rw [putField_comm different.symm]

end Json

namespace Hue

open Json (Value)
open Talk

/-! ### Bridges -/

/-- Changes that are merged one after the other are merged as one. -/
theorem Bridge.merge_merge (b : Bridge) (change change' : List (String × Value)) :
    (b.merge change).merge change' = b.merge (change ++ change') := by
  cases light : b.light with
  | object fields =>
    have merged : (b.merge change).merged change' = b.merged (change ++ change') := by
      rw [Bridge.merged, state_merge light, Bridge.merged, Bridge.merged, List.filter_append,
        List.foldl_append]
    rw [merge_eq (congrArg Bridge.light (merge_eq light change)), merged, merge_eq light,
      Json.putField_putField]
  | null | bool _ | number _ | text _ | list _ =>
    have unmoved : ∀ change, b.merge change = b := fun change => by rw [merge, withState, light]
    rw [unmoved, unmoved, unmoved]

/-- A colour that is merged in three steps is merged whole. -/
theorem Bridge.merge_colour (b : Bridge) (c : Hsb) :
    ((b.merge [hueField c.hue]).merge [saturationField c.saturation]).merge
      [brightnessField c.brightness] = b.merge (colorFields c) := by
  have lasting : ∀ f ∈ colorFields c, decide (f.1 ≠ transitionName) = true := fun f hf =>
    decide_eq_true (changes_settable (.setHsb c) f hf).2
  have steps : ∀ f ∈ [hueField c.hue] ++ [saturationField c.saturation] ++
      [brightnessField c.brightness], decide (f.1 ≠ transitionName) = true := fun f hf =>
    lasting f (by simp only [colorFields, List.mem_append, List.mem_cons] at hf ⊢; grind)
  have merged : b.merged ([hueField c.hue] ++ [saturationField c.saturation] ++
      [brightnessField c.brightness]) = b.merged (colorFields c) := by
    rw [Bridge.merged, Bridge.merged, List.filter_eq_self.mpr lasting, List.filter_eq_self.mpr steps]
    refine Json.foldl_putField_concat (fun f hf => ?_) b.state
    rcases List.mem_append.mp hf with hf | hf <;> rw [List.mem_singleton.mp hf]
    · exact show "hue" ≠ "bri" by decide
    · exact show "sat" ≠ "bri" by decide
  rw [merge_merge, merge_merge]
  exact congrArg b.withState merged

/-- The bridge does not keep the time that a change takes. -/
theorem Bridge.merge_timed (b : Bridge) (h : Handle) {fields : List (String × Value)}
    (lasting : ∀ f ∈ fields, f.1 ≠ transitionName) : b.merge (h.timed fields) = b.merge fields := by
  have whole : fields.filter (·.1 ≠ transitionName) = fields :=
    List.filter_eq_self.mpr fun f hf => by simpa using lasting f hf
  rw [merge, merge, h.filter_timed lasting, whole]

/-! ### Networks -/

/-- A network with a bridge behind it that carries out every change and says so. -/
def Obeys {σ : Type} (n : Network σ) (bridge : σ → Bridge) (inv : σ → Prop) : Prop :=
  ∀ url change s, inv s → (∀ f ∈ change, Settable f) →
    inv (n ⟨url, some (.object change)⟩ s).2 ∧
    bridge (n ⟨url, some (.object change)⟩ s).2 = (bridge s).merge change ∧
    ∃ v, (n ⟨url, some (.object change)⟩ s).1.accepted url = .ok v

/-- The bridge itself carries out every change. -/
theorem Bridge.obeys : Obeys Bridge.answer id fun _ => True := fun url _ _ _ settable =>
  ⟨trivial, rfl, _, accepted_success settable url⟩

/-- A network that keeps what it was asked. -/
def Network.noting {σ : Type} (n : Network σ) : Network (σ × List Request) := fun r (s, asked) =>
  let (outcome, s) := n r s
  (outcome, (s, asked ++ [r]))

namespace Outlet

variable {σ : Type} {n : Network σ} {bridge : σ → Bridge} {inv : σ → Prop}
variable {o : Outlet (σ × List Request)} {index : Nat}

/-- The handle that a call goes through. -/
def handle (o : Outlet σ) (index : Nat) : Handle := o.handles.getD index o.connector.handle

/-- Fields were changed, in one request through a handle, and nothing else. -/
structure Changes (bridge : σ → Bridge) (inv : σ → Prop) (index : Nat)
    (fields : List (String × Value)) (o o' : Outlet (σ × List Request)) : Prop where
  inv : inv o'.network.1
  bridge : bridge o'.network.1 = (bridge o.network.1).merge fields
  asked : ∃ url, o'.network.2 =
    o.network.2 ++ [⟨url, some (.object ((o.handle index).timed fields))⟩]
  handles : o'.handles = o.handles
  connector : o'.connector = o.connector

theorem Changes.handle {fields : List (String × Value)} {o o' : Outlet (σ × List Request)}
    (h : Changes bridge inv index fields o o') : o'.handle index = o.handle index := by
  rw [Outlet.handle, Outlet.handle, h.handles, h.connector]

theorem set_handle (o : Outlet σ) (index : Nat) :
    o.handles.set index (o.handle index) = o.handles := by
  by_cases inside : index < o.handles.length
  · rw [handle, List.getD_eq_getElem?_getD, List.getElem?_eq_getElem inside, Option.getD_some,
      List.set_getElem_self]
  · exact List.set_eq_of_length_le (Nat.le_of_not_lt inside)

/-- A call that changes fields, through a handle whose address can be asked for. -/
theorem leads_changes (obeys : Obeys n bridge inv) (fit : inv o.network.1)
    (reaches : (Web.Url.parse? ((o.handle index).address ++ "/state")).any Web.Url.isSendable = true)
    {c : Call} (some : changes c ≠ []) :
    Leads n.noting (Hue.perform c) (o.handle index) o.network fun _ r h s =>
      (∃ reply, r = .ok reply) ∧ Changes bridge inv index (changes c) o
        { o with network := s, handles := o.handles.set index h } := by
  have puts : Leads n.noting (put (changes c)) (o.handle index) o.network fun _ r h s =>
      (∃ reply, r = .ok reply) ∧ Changes bridge inv index (changes c) o
        { o with network := s, handles := o.handles.set index h } := by
    obtain ⟨url, parsed, sendable⟩ := (Option.any_eq_true _ _).mp reaches
    refine (leads_put parsed sendable _).mono fun _ r h s ⟨_, result, state, world⟩ => ?_
    obtain ⟨after, merged, v, accepted⟩ := obeys url _ o.network.1 fit
      ((o.handle index).timed_settable fun f hf => (changes_settable c f hf).1)
    have accepted : (n.noting ⟨url, .some (.object ((o.handle index).timed (changes c)))⟩
      o.network).1.accepted url = .ok v := accepted
    rw [accepted] at result
    refine ⟨⟨(), result⟩, ?_⟩
    rw [state, set_handle, world]
    have untimed := Bridge.merge_timed (bridge o.network.1) (o.handle index)
      fun f hf => (changes_settable c f hf).2
    exact ⟨after, merged.trans untimed, ⟨url, rfl⟩, rfl, rfl⟩
  cases c with
  | setRgb rgb | setHue hue | setSaturation level | setBrightness level | setHsb hsb | turnOn | turnOff =>
    exact puts
  | _ => exact absurd rfl some

theorem perform_changes (obeys : Obeys n bridge inv) (fit : inv o.network.1)
    (reaches : (Web.Url.parse? ((o.handle index).address ++ "/state")).any Web.Url.isSendable = true)
    {c : Call} (some : changes c ≠ []) :
    ∃ reply o', Outlet.perform n.noting index c o = (.ok reply, o') ∧
      Changes bridge inv index (changes c) o o' := by
  obtain ⟨⟨reply, done⟩, changed⟩ := leads_changes obeys fit reaches some
  exact ⟨reply, _, (perform_eq n.noting index c o).trans (Prod.ext done rfl), changed⟩

/-- A colour that is set step by step is three changes. -/
theorem inSteps_changes (obeys : Obeys n bridge inv) (fit : inv o.network.1)
    (reaches : (Web.Url.parse? ((o.handle index).address ++ "/state")).any Web.Url.isSendable = true)
    (hsb : Hsb) :
    ∃ first second third, inSteps (Outlet.perform n.noting index) (.setHsb hsb) o = (.ok (), third) ∧
      Changes bridge inv index [hueField hsb.hue] o first ∧
      Changes bridge inv index [saturationField hsb.saturation] first second ∧
      Changes bridge inv index [brightnessField hsb.brightness] second third := by
  obtain ⟨_, first, hue, changed⟩ := perform_changes obeys fit reaches (c := .setHue hsb.hue) nofun
  have reaches := changed.handle ▸ reaches
  obtain ⟨_, second, saturation, changed'⟩ :=
    perform_changes obeys changed.inv reaches (c := .setSaturation hsb.saturation) nofun
  have reaches := changed'.handle ▸ reaches
  obtain ⟨_, third, brightness, changed''⟩ :=
    perform_changes obeys changed'.inv reaches (c := .setBrightness hsb.brightness) nofun
  refine ⟨first, second, third, ?_, changed, changed', changed''⟩
  rw [inSteps, hue]
  dsimp only
  rw [saturation]
  exact brightness

/-- The requests of some changes carry the time of the handle. -/
theorem Changes.time {fields : List (String × Value)} {o' : Outlet (σ × List Request)}
    (h : Changes bridge inv index fields o o') (untimed : ∀ f ∈ fields, f.1 ≠ transitionName) :
    ∃ r : Request, o'.network.2 = o.network.2 ++ [r] ∧ ∃ change, r.change? = some change ∧
      timeField change = (o.handle index).transition.map timeValue := by
  obtain ⟨url, asked⟩ := h.asked
  exact ⟨_, asked, _, rfl, (o.handle index).timeField_timed untimed⟩

end Outlet

end Hue

open Hue in
/-- **A colour that is set at once is the colour that is set step by step.**  When nothing fails, either
way leaves the same light in a simulated bulb, and the same light in a bridge, which is asked once or three
times, each time with the time that changes through the handle take. -/
theorem stepwise_agrees :
    (∀ (b : Simulated) (hsb : Hsb), b.Willing → ∃ once steps,
      b.perform (.setHsb hsb) = (.ok (), once) ∧
      inSteps Simulated.perform (.setHsb hsb) b = (.ok (), steps) ∧ once.light = steps.light) ∧
    ∀ (σ : Type) (n : Network σ) (bridge : σ → Bridge) (inv : σ → Prop), Obeys n bridge inv →
      ∀ (o : Outlet (σ × List Request)) (index : Nat) (hsb : Hsb), inv o.network.1 →
        (Web.Url.parse? ((o.handle index).address ++ "/state")).any Web.Url.isSendable = true →
        ∃ once steps asked asked',
          Outlet.perform n.noting index (.setHsb hsb) o = (.ok (), once) ∧
          inSteps (Outlet.perform n.noting index) (.setHsb hsb) o = (.ok (), steps) ∧
          bridge once.network.1 = bridge steps.network.1 ∧ once.handles = steps.handles ∧
          once.network.2 = o.network.2 ++ asked ∧ asked.length = 1 ∧
          steps.network.2 = o.network.2 ++ asked' ∧ asked'.length = 3 ∧
          ∀ r ∈ asked ++ asked', ∃ change, r.change? = some change ∧
            timeField change = (o.handle index).transition.map timeValue := by
  refine ⟨fun b hsb willing => ⟨_, _, willing.perform _, willing.inSteps hsb, rfl⟩,
    fun σ n bridge inv obeys o index hsb fit reaches => ?_⟩
  obtain ⟨_, once, whole, changed⟩ :=
    Outlet.perform_changes obeys fit reaches (c := .setHsb hsb) nofun
  obtain ⟨first, second, third, steps, changed₁, changed₂, changed₃⟩ :=
    Outlet.inSteps_changes obeys fit reaches hsb
  have untimed (c : Call) : ∀ f ∈ changes c, f.1 ≠ transitionName :=
    fun f hf => (changes_settable c f hf).2
  obtain ⟨r, asked, time⟩ := changed.time (untimed (.setHsb hsb))
  obtain ⟨r₁, asked₁, time₁⟩ := changed₁.time (untimed (.setHue hsb.hue))
  obtain ⟨r₂, asked₂, time₂⟩ := changed₂.time (untimed (.setSaturation hsb.saturation))
  obtain ⟨r₃, asked₃, time₃⟩ := changed₃.time (untimed (.setBrightness hsb.brightness))
  rw [changed₁.handle] at time₂
  rw [changed₂.handle, changed₁.handle] at time₃
  refine ⟨once, third, [r], [r₁, r₂, r₃], whole, steps, ?_, ?_, asked, rfl, ?_, rfl, ?_⟩
  · rw [changed.bridge, changed₃.bridge, changed₂.bridge, changed₁.bridge, Bridge.merge_colour]
    rfl
  · rw [changed.handles, changed₃.handles, changed₂.handles, changed₁.handles]
  · rw [asked₃, asked₂, asked₁, List.append_assoc, List.append_assoc]
    rfl
  · exact List.forall_mem_cons.mpr ⟨time, List.forall_mem_cons.mpr ⟨time₁, List.forall_mem_cons.mpr
      ⟨time₂, List.forall_mem_singleton.mpr time₃⟩⟩⟩

namespace Hue

/-- A handle on a bridge, through which changes take half a second. -/
def slowLight : Outlet (Bridge × List Request) :=
  let connector := Connector.new "10.0.0.2" "me" "1"
  { Outlet.new connector (⟨.object [("state", .object [onField true])]⟩, []) with
    handles := [{ connector.handle with transition := some 5 }] }

/-- More saturation than a bridge takes, on a light that had no colour. -/
theorem stepwise_agrees_saturated :
    (Simulated.new "1" .dark).Willing ∧ Obeys Bridge.answer id (fun _ => True) ∧
      (Web.Url.parse? ((slowLight.handle 0).address ++ "/state")).any Web.Url.isSendable = true ∧
      (∃ once steps, (Simulated.new "1" .dark).perform (.setHsb ⟨1000, 255, 10⟩) = (.ok (), once) ∧
        inSteps Simulated.perform (.setHsb ⟨1000, 255, 10⟩) (.new "1" .dark) = (.ok (), steps) ∧
        once.light = steps.light) ∧
      ∃ once steps,
        slowLight.perform (Network.noting Bridge.answer) 0 (.setHsb ⟨1000, 255, 10⟩) = (.ok (), once) ∧
        inSteps (Outlet.perform (Network.noting Bridge.answer) 0) (.setHsb ⟨1000, 255, 10⟩) slowLight =
          (.ok (), steps) ∧
        once.network.1 = steps.network.1 ∧ steps.network.2.length = 3 := by
  have willing : (Simulated.new "1" .dark).Willing := ⟨rfl, rfl⟩
  have reaches : (Web.Url.parse? ((slowLight.handle 0).address ++ "/state")).any Web.Url.isSendable =
    true := by decide +kernel
  refine ⟨willing, Bridge.obeys, reaches, stepwise_agrees.1 _ _ willing, ?_⟩
  obtain ⟨once, steps, asked, asked', whole, parts, same, -, -, -, kept, three, -⟩ :=
    stepwise_agrees.2 Bridge Bridge.answer id _ Bridge.obeys slowLight 0 ⟨1000, 255, 10⟩ trivial reaches
  exact ⟨once, steps, whole, parts, same, (congrArg List.length kept).trans three⟩

end Hue

end Lightshow
