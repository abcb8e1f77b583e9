/-
A bridge that keeps a light, and what a client makes of its replies.

A bridge keeps one object, whose state it changes field by field: a field that is set takes the place of
the one before, and the others stay.  What it writes can always be read, before and after any change that
a call makes, so a client that reaches it is told of a light.

* `Fields.Fits.ofValue` -- an object whose fields fit a record is read as that record;
* `IsState.merge` -- a state stays one when changes are merged;
* `Bridge.field_merge` -- the fields of a bridge after a change, each by its name;
* `Bridge.Sound.ofReply`, `Bridge.Sound.merge` -- a client understands the light, now and after a change;
* `Hue.changes_settable` -- what calls set can be merged;
* `Hue.leads_put`, `Hue.leads_fetch` -- a change and a reading are one request each.
-/
import Lightshow.Hue.Bridge
import Lightshow.Proofs.Reading
import Lightshow.Proofs.Turns

namespace Lightshow

namespace Json

/-! ### Records -/

/-- The fields of an object without those of a name. -/
abbrev without (name : String) (entries : List (String × Value)) : List (String × Value) :=
  entries.filter fun e => e.1 ≠ name

theorem field?_without {name other : String} (h : other ≠ name) (entries : List (String × Value)) :
    (Value.object (without name entries)).field? other = (Value.object entries).field? other := by
  induction entries with
  | nil => rfl
  | cons e entries ih =>
    rw [without, List.filter_cons, field?_cons]
    by_cases same : e.1 = name
    · rw [if_neg (by simpa using same), if_neg fun h' => h (h'.symm.trans same)]
      exact ih
    · rw [if_pos (by simpa using same), field?_cons]
      split
      · rfl
      · exact ih

/-- The fields of an object fit the fields of a record, some of which were found before: those that
come have not been found and can be read, and those that do not come may be missing. -/
def Fields.Fits : (fields : Fields) → fields.Draft → List (String × Value) → Prop
  | .nil, _, _ => True
  | .cons name presence s rest, (found, more), entries =>
    (match (Value.object entries).field? name with
      | some v => found = none ∧ ∃ data, s.ofValue v = .ok data
      | none => presence = .optional ∨ (found <|> s.absent?).isSome = true) ∧
    rest.Fits more (without name entries)

theorem Fields.fits_cons {name : String} {presence : Presence} {s : Shape} {rest : Fields}
    {entries : List (String × Value)}
    (understood : ∀ v, (Value.object entries).field? name = some v → ∃ data, s.ofValue v = .ok data)
    (missing : (Value.object entries).field? name = none → presence = .optional)
    (others : rest.Fits rest.blank (without name entries)) :
    (Fields.cons name presence s rest).Fits (Fields.cons name presence s rest).blank entries := by
  refine ⟨?_, others⟩
  cases found : (Value.object entries).field? name with
  | none => exact Or.inl (missing found)
  | some v => exact ⟨rfl, understood v found⟩

/-- The next field of an object is taken up. -/
theorem Fields.Fits.take {name : String} {v : Value} {entries : List (String × Value)}
    (new : (Value.object entries).field? name = none) :
    ∀ {fields : Fields} {draft : fields.Draft}, fields.Fits draft ((name, v) :: entries) →
      ∃ next, fields.take name v draft = .ok next ∧ fields.Fits next entries
  | .nil, draft, _ => ⟨draft, rfl, trivial⟩
  | .cons known presence s rest, (found, more), h => by
    obtain ⟨first, others⟩ := h
    rw [field?_cons] at first
    by_cases same : name = known
    · subst same
      rw [if_pos rfl] at first
      obtain ⟨rfl, data, hdata⟩ := first
      refine ⟨(some data, more), ?_, ?_, ?_⟩
      · rw [Fields.take, if_pos rfl, hdata]
        rfl
      · rw [new]
        exact Or.inr rfl
      · rw [without, List.filter_cons, if_neg (by simp)] at others
        exact others
    · rw [if_neg same] at first
      rw [without, List.filter_cons, if_pos (by simpa using same)] at others
      obtain ⟨next, taken, fits⟩ := Fields.Fits.take ((field?_without same entries).trans new) others
      refine ⟨(found, next), ?_, first, fits⟩
      rw [Fields.take.eq_def]
      dsimp only
      rw [if_neg (Ne.symm same), taken]
      rfl

/-- All fields of an object are taken up. -/
theorem Fields.Fits.foldlM {fields : Fields} {draft : fields.Draft}
    {entries : List (String × Value)} (ordered : Ordered entries) (fits : fields.Fits draft entries) :
    ∃ last, entries.foldlM (fun draft entry => fields.take entry.1 entry.2 draft) draft = .ok last ∧
      fields.Fits last [] := by
  induction entries generalizing draft with
  | nil => exact ⟨draft, rfl, fits⟩
  | cons e entries ih =>
    obtain ⟨first, others⟩ := List.pairwise_cons.mp ordered
    have new : (Value.object entries).field? e.1 = none :=
      field?_eq_none fun f hf same => String.lt_irrefl _ (same ▸ first f hf)
    obtain ⟨next, taken, fits⟩ := fits.take new
    obtain ⟨last, all, fits⟩ := ih others fits
    refine ⟨last, ?_, fits⟩
    rw [List.foldlM_cons, taken]
    exact all

/-- Nothing is missing. -/
theorem Fields.Fits.finish : ∀ {fields : Fields} {draft : fields.Draft}, fields.Fits draft [] →
    ∃ data, fields.finish draft = .ok data
  | .nil, _, _ => ⟨(), rfl⟩
  | .cons name .required s rest, (found, more), ⟨first, others⟩ => by
    obtain ⟨data, all⟩ := Fields.Fits.finish others
    obtain ⟨d, hd⟩ := Option.isSome_iff_exists.mp (first.resolve_left nofun)
    refine ⟨(d, data), ?_⟩
    rw [Fields.finish, hd, all]
    rfl
  | .cons name .optional s rest, (found, more), ⟨_, others⟩ => by
    obtain ⟨data, all⟩ := Fields.Fits.finish others
    refine ⟨(found, data), ?_⟩
    rw [Fields.finish, all]
    rfl

/-- An object whose fields fit a record is read as one. -/
theorem Fields.Fits.ofValue {fields : Fields} {entries : List (String × Value)}
    (ordered : Ordered entries) (fits : fields.Fits fields.blank entries) (name : String) :
    ∃ data, (Shape.record name fields).ofValue (.object entries) = .ok data := by
  obtain ⟨last, all, fits⟩ := fits.foldlM ordered
  obtain ⟨data, finished⟩ := fits.finish
  refine ⟨data, ?_⟩
  rw [Shape.ofValue, all]
  exact finished

end Json

namespace Hue

open Json

/-! ### Lights -/

/-- What a bridge may tell in a field of the state of a light. -/
def fieldShape? (name : String) : Option Shape :=
  if name = "on" then some .boolean
  else if name = "bri" then some (.natural 8)
  else if name = "hue" then some (.natural 16)
  else if name = "sat" then some (.natural 8)
  else none

/-- A field that a client understands, if it knows it. -/
def Understood (f : String × Value) : Prop :=
  ∀ s ∈ fieldShape? f.1, ∃ data, s.ofValue f.2 = .ok data

/-- The state of a light as a bridge writes it. -/
structure IsState (state : List (String × Value)) : Prop where
  ordered : Ordered state
  on : ((Value.object state).field? "on").isSome = true
  understood : ∀ f ∈ state, Understood f
  legible : ∀ f ∈ state, f.2.ReadsBack (nestingLimit - 2)

theorem IsState.putField {state : List (String × Value)} (h : IsState state) {name : String}
    {v : Value} (understood : Understood (name, v)) (legible : v.ReadsBack (nestingLimit - 2)) :
    IsState (putField name v state) where
  ordered := h.ordered.putField name v
  on := by
    rw [field?_putField]
    split
    · rfl
    · exact h.on
  understood f hf := (mem_putField hf).elim (fun same => same ▸ understood) (h.understood f)
  legible f hf := (mem_putField hf).elim (fun same => same ▸ legible) (h.legible f)

/-- A state that a bridge writes is understood. -/
theorem IsState.ofValue {state : List (String × Value)} (h : IsState state) :
    ∃ data, State.shape.ofValue (.object state) = .ok data := by
  have known : ∀ {name : String} {s : Shape}, fieldShape? name = some s → ∀ v,
      (Value.object state).field? name = some v → ∃ data, s.ofValue v = .ok data :=
    fun shaped _ found => h.understood _ (mem_of_field? found) _ shaped
  refine Fields.Fits.ofValue h.ordered ?_ "LightState"
  refine Fields.fits_cons (known rfl) (fun none => ?_) ?_
  · exact absurd h.on (by rw [none]; decide)
  refine Fields.fits_cons ?_ (fun _ => rfl) ?_
  · rw [field?_without (by decide)]
    exact known rfl
  refine Fields.fits_cons ?_ (fun _ => rfl) ?_
  · rw [field?_without (by decide), field?_without (by decide)]
    exact known rfl
  refine Fields.fits_cons ?_ (fun _ => rfl) trivial
  rw [field?_without (by decide), field?_without (by decide), field?_without (by decide)]
  exact known rfl

/-- The last of some fields with a name, or else what was found before. -/
def lastField (name : String) (found : Option Value) (fields : List (String × Value)) :
    Option Value :=
  fields.foldl (fun found f => if f.1 = name then some f.2 else found) found

/-- Fields that are put one after the other: of each name the last is found. -/
theorem field?_foldl_putField (state change : List (String × Value)) (name : String) :
    (Value.object (change.foldl (fun fields (name, v) => Json.putField name v fields) state)).field?
      name = lastField name ((Value.object state).field? name) change := by
  induction change generalizing state with
  | nil => rfl
  | cons f change ih =>
    refine (ih (Json.putField f.1 f.2 state)).trans ?_
    rw [field?_putField]
    rfl

/-- A field that can be set. -/
structure Settable (f : String × Value) : Prop where
  understood : Understood f
  legible : ∀ limit, f.2.ReadsBack limit

/-- Changes are merged one after the other. -/
theorem IsState.merge {state change : List (String × Value)} (h : IsState state)
    (settable : ∀ f ∈ change, Settable f) :
    IsState (change.foldl (fun fields (name, v) => Json.putField name v fields) state) := by
  induction change generalizing state with
  | nil => exact h
  | cons f change ih =>
    obtain ⟨hf, settable⟩ := List.forall_mem_cons.mp settable
    exact ih (h.putField hf.understood (hf.legible _)) settable

theorem IsState.of_settable {state : List (String × Value)} (ordered : Ordered state)
    (on : ((Value.object state).field? "on").isSome = true) (settable : ∀ f ∈ state, Settable f) :
    IsState state where
  ordered := ordered
  on := on
  understood f hf := (settable f hf).understood
  legible f hf := (settable f hf).legible _

theorem IsState.readsBack {state : List (String × Value)} (h : IsState state) :
    (Value.object state).ReadsBack (nestingLimit - 1) :=
  ReadsBack.object h.ordered h.legible

namespace Bridge

/-- A field of the state of the light. -/
def field (b : Bridge) (name : String) : Option Value := (Value.object b.state).field? name

section

variable {b : Bridge} {fields : List (String × Value)}

/-- The fields of the state after a change. -/
def merged (b : Bridge) (change : List (String × Value)) : List (String × Value) :=
  (change.filter (·.1 ≠ transitionName)).foldl
    (fun fields (name, v) => Json.putField name v fields) b.state

theorem merge_eq (object : b.light = .object fields) (change : List (String × Value)) :
    b.merge change = ⟨.object (putField stateName (.object (b.merged change)) fields)⟩ := by
  rw [merge, withState, object]
  rfl

theorem state_merge (object : b.light = .object fields) (change : List (String × Value)) :
    (b.merge change).state = b.merged change := by
  rw [merge_eq object, state, field?_putField, if_pos rfl]

/-- A bridge merges a change into the state of its light. -/
theorem field_merge (object : b.light = .object fields) (change : List (String × Value))
    (name : String) : (b.merge change).field name =
      lastField name (b.field name) (change.filter (·.1 ≠ transitionName)) := by
  rw [field, state_merge object]
  exact field?_foldl_putField b.state _ name

end

/-- The light of a bridge is written so that a client understands it. -/
structure Sound (b : Bridge) (fields : List (String × Value)) : Prop where
  light : b.light = .object fields
  ordered : Ordered fields
  name : ∀ v, (Value.object fields).field? "name" = some v → ∃ s, Shape.text.ofValue v = .ok s
  state : (Value.object fields).field? stateName = some (.object b.state)
  isState : IsState b.state
  legible : ∀ f ∈ fields, f.2.ReadsBack (nestingLimit - 1)

namespace Sound

variable {b : Bridge} {fields : List (String × Value)}

/-- What a bridge writes about its light is read. -/
theorem ofText (h : b.Sound fields) : Value.ofText b.light.write.toList = .ok b.light := by
  rw [h.light]
  exact Value.ofText_write (ReadsBack.object h.ordered h.legible)

/-- The light of a bridge is understood. -/
theorem ofReply (h : b.Sound fields) : ∃ state, State.ofReply b.light = .ok state := by
  obtain ⟨data, hdata⟩ := h.isState.ofValue
  have fits : ∃ data, State.lightShape.ofValue (.object fields) = .ok data := by
    refine Fields.Fits.ofValue h.ordered ?_ "LightResource"
    refine Fields.fits_cons h.name (fun _ => rfl) ?_
    have state : (Value.object (without "name" fields)).field? "state" = some (.object b.state) :=
      (field?_without (by decide) fields).trans h.state
    refine Fields.fits_cons (fun v found => ?_) (fun none => absurd (state.symm.trans none) nofun) trivial
    exact ⟨data, Option.some.inj (state.symm.trans found) ▸ hdata⟩
  obtain ⟨⟨_, state, _⟩, hlight⟩ := fits
  refine ⟨State.ofData state, ?_⟩
  rw [State.ofReply, h.light, hlight]

/-- A bridge whose light has nothing but a state. -/
theorem of_isState {state : List (String × Value)} (h : IsState state) :
    (⟨.object [(stateName, .object state)]⟩ : Bridge).Sound [(stateName, .object state)] where
  light := rfl
  ordered := List.pairwise_singleton _ _
  name := nofun
  state := rfl
  isState := h
  legible := List.forall_mem_singleton.mpr h.readsBack

/-- A bridge that was changed is understood as before. -/
theorem merge (h : b.Sound fields) {change : List (String × Value)}
    (settable : ∀ f ∈ change, Settable f) : ∃ fields, (b.merge change).Sound fields := by
  have isState : IsState (b.merged change) :=
    h.isState.merge fun f hf => settable f (List.mem_filter.mp hf).1
  have put := field?_putField stateName stateName (.object (b.merged change)) fields
  rw [if_pos rfl] at put
  refine ⟨putField stateName (.object (b.merged change)) fields,
    congrArg Bridge.light (merge_eq h.light change), h.ordered.putField _ _, ?_,
    (state_merge h.light change).symm ▸ put, (state_merge h.light change).symm ▸ isState, ?_⟩
  · rw [field?_putField, if_neg (by decide)]
    exact h.name
  · exact fun f hf => (mem_putField hf).elim (fun eq => eq ▸ isState.readsBack) (h.legible f)

end Sound

end Bridge

/-! ### Replies -/

/-- A success lets a client go on with what is in it. -/
theorem accepted_of_ofText {body : String} {v : Value} (url : Web.Url)
    (read : Value.ofText body.toList = .ok v) (fine : firstError? v = none) :
    (Outcome.reply 200 body).accepted url = .ok v := by
  rw [Outcome.accepted, if_neg (by decide), if_neg (by decide), read]
  dsimp only
  rw [fine]

/-- What succeeded is no error. -/
theorem accepted_success {change : List (String × Value)} (settable : ∀ f ∈ change, Settable f)
    (url : Web.Url) :
    (Outcome.reply 200 (Bridge.success change).write).accepted url =
      .ok (Bridge.success change) := by
  refine accepted_of_ofText url (Value.ofText_write ?_) ?_
  · refine ReadsBack.list (List.forall_mem_map.mpr fun f hf => ?_)
    have entry : (Value.object [f]).ReadsBack (nestingLimit - 2) :=
      ReadsBack.object (List.pairwise_singleton _ _)
        (List.forall_mem_singleton.mpr ((settable f hf).legible _))
    exact ReadsBack.object (List.pairwise_singleton _ _) (List.forall_mem_singleton.mpr entry)
  · rw [firstError?, Bridge.success, Value.items?, Option.getD_some, List.findSome?_map]
    exact List.findSome?_eq_none_iff.mpr fun f _ => rfl

theorem Bridge.Sound.accepted {b : Bridge} {fields : List (String × Value)} (h : b.Sound fields)
    (url : Web.Url) : (Outcome.reply 200 b.light.write).accepted url = .ok b.light := by
  refine accepted_of_ofText url h.ofText ?_
  rw [h.light]
  rfl

/-! ### Calls as changes -/

theorem settable_natural {name : String} {bits n : Nat} (small : n < Nat.pow 2 bits)
    (most : bits ≤ 64) (shape : ∀ s ∈ fieldShape? name, s = .natural bits) :
    Settable (naturalField name n) where
  understood s hs := by
    have whole : n.toUInt64.toNat = n :=
      UInt64.toNat_ofNat_of_lt (Nat.lt_of_lt_of_le small (Nat.pow_le_pow_right (by decide) most))
    obtain rfl := shape s hs
    refine ⟨⟨n.toUInt64.toNat, whole.symm ▸ small⟩, ?_⟩
    exact dif_pos (whole.symm ▸ small)
  legible limit := ReadsBack.natural _

theorem settable_on (b : Bool) : Settable (onField b) where
  understood s hs := by
    obtain rfl : Shape.boolean = s := Option.some.inj hs
    exact ⟨b, rfl⟩
  legible limit := ReadsBack.bool b

/-- The fields that a call sets. -/
def changes : Call → List (String × Value)
  | .setRgb rgb => colorFields rgb.toHsb
  | .setHue hue => [hueField hue]
  | .setSaturation level => [saturationField level]
  | .setBrightness level => [brightnessField level]
  | .setHsb hsb => colorFields hsb
  | .turnOn => [onField true]
  | .turnOff => [onField false]
  | _ => []

/-- What a call sets can be set, and is not the time that the change takes. -/
theorem changes_settable (c : Call) : ∀ f ∈ changes c, Settable f ∧ f.1 ≠ transitionName := by
  have hue (h : UInt16) : Settable (hueField h) ∧ (hueField h).1 ≠ transitionName :=
    ⟨settable_natural h.toNat_lt (by decide) fun _ hs => (Option.some.inj hs).symm,
      show "hue" ≠ transitionName by decide⟩
  have saturation (level : UInt8) :
      Settable (saturationField level) ∧ (saturationField level).1 ≠ transitionName :=
    ⟨settable_natural (boundedLevel level).toNat_lt (by decide) fun _ hs =>
      (Option.some.inj hs).symm, show "sat" ≠ transitionName by decide⟩
  have brightness (level : UInt8) :
      Settable (brightnessField level) ∧ (brightnessField level).1 ≠ transitionName :=
    ⟨settable_natural (boundedLevel level).toNat_lt (by decide) fun _ hs =>
      (Option.some.inj hs).symm, show "bri" ≠ transitionName by decide⟩
  have on (b : Bool) : Settable (onField b) ∧ (onField b).1 ≠ transitionName :=
    ⟨settable_on b, show "on" ≠ transitionName by decide⟩
  have color (hsb : Hsb) : ∀ f ∈ colorFields hsb, Settable f ∧ f.1 ≠ transitionName :=
    List.forall_mem_cons.mpr ⟨brightness _, List.forall_mem_cons.mpr ⟨hue _,
      List.forall_mem_singleton.mpr (saturation _)⟩⟩
  cases c with
  | setRgb rgb => exact color rgb.toHsb
  | setHsb hsb => exact color hsb
  | setHue h => exact List.forall_mem_singleton.mpr (hue h)
  | setSaturation level => exact List.forall_mem_singleton.mpr (saturation level)
  | setBrightness level => exact List.forall_mem_singleton.mpr (brightness level)
  | turnOn => exact List.forall_mem_singleton.mpr (on true)
  | turnOff => exact List.forall_mem_singleton.mpr (on false)
  | _ => exact List.forall_mem_nil _

/-- The fields of a state after a call. -/
def afterCall (field : String → Option Value) (c : Call) (name : String) : Option Value :=
  lastField name (field name) (changes c)

theorem lastField_eq (name : String) (found : Option Value) (fields : List (String × Value)) :
    lastField name found fields = (lastField name none fields).or found := by
  induction fields generalizing found with
  | nil => rfl
  | cons f fields ih =>
    show lastField name (if f.1 = name then some f.2 else found) fields =
      (lastField name (if f.1 = name then some f.2 else none) fields).or found
    rw [ih, ih (if f.1 = name then some f.2 else none), Option.or_assoc]
    split <;> rfl

/-- A call that is made twice changes nothing more. -/
theorem afterCall_again (field : String → Option Value) (c : Call) :
    afterCall (afterCall field c) c = afterCall field c := by
  funext name
  rw [afterCall, afterCall, lastField_eq, lastField_eq name (field name)]
  cases lastField name none (changes c) <;> rfl

/-- The fields of a change with the time that it takes, as a handle sends them. -/
def Handle.timed (h : Handle) (fields : List (String × Value)) : List (String × Value) :=
  match h.transition with
  | some tenths => putField transitionName (.number (.natural tenths.toNat.toUInt64)) fields
  | none => fields

theorem filter_putField (name : String) (v : Value) (fields : List (String × Value)) :
    (putField name v fields).filter (·.1 ≠ name) = fields.filter (·.1 ≠ name) := by
  induction fields with
  | nil => simp [putField]
  | cons f fields ih =>
    rw [putField]
    split
    case isTrue same => simp [same]
    case isFalse =>
      split
      · simp
      · rw [List.filter_cons, List.filter_cons, ih]

/-- The bridge does not keep the time that a change takes. -/
theorem Handle.filter_timed (h : Handle) {fields : List (String × Value)}
    (lasting : ∀ f ∈ fields, f.1 ≠ transitionName) :
    (h.timed fields).filter (·.1 ≠ transitionName) = fields := by
  have whole : fields.filter (·.1 ≠ transitionName) = fields :=
    List.filter_eq_self.mpr fun f hf => by simpa using lasting f hf
  rw [timed]
  split
  · rw [filter_putField, whole]
  · exact whole

theorem Handle.timed_settable (h : Handle) {fields : List (String × Value)}
    (settable : ∀ f ∈ fields, Settable f) : ∀ f ∈ h.timed fields, Settable f := by
  intro f hf
  rw [timed] at hf
  split at hf
  · rcases mem_putField hf with rfl | hf
    · exact ⟨fun s hs => absurd hs nofun, fun limit => ReadsBack.natural _⟩
    · exact settable f hf
  · exact settable f hf

/-! ### Requests -/

section

open Talk

variable {σ : Type} {network : Request → σ → Outcome × σ} {h : Handle} {s : σ}

/-- A request that can be sent is answered by the network. -/
theorem leads_send {address : String} {url : Web.Url} (parsed : Web.Url.parse? address = some url)
    (sendable : url.isSendable = true) (body : Option Value) :
    Leads network (send address body) h s fun T r h' s' =>
      T = [⟨h, ⟨url, body⟩, (network ⟨url, body⟩ s).1, s⟩] ∧
      r = (network ⟨url, body⟩ s).1.accepted url ∧ h' = h ∧ s' = (network ⟨url, body⟩ s).2 := by
  rw [send, parsed]
  dsimp only
  rw [sendable]
  show Leads network (ask ⟨url, body⟩ >>= _) h s _
  rw [leads_ask_bind]
  cases (network ⟨url, body⟩ s).1.accepted url with
  | ok reply => exact ⟨rfl, rfl, rfl, rfl⟩
  | error cause => exact ⟨rfl, rfl, rfl, rfl⟩

/-- A change is one request, which carries the time that it takes. -/
theorem leads_put {url : Web.Url} (parsed : Web.Url.parse? (h.address ++ "/state") = some url)
    (sendable : url.isSendable = true) (fields : List (String × Value)) :
    Leads network (put fields) h s fun T r h' s' =>
      T = [⟨h, ⟨url, some (.object (h.timed fields))⟩,
        (network ⟨url, some (.object (h.timed fields))⟩ s).1, s⟩] ∧
      r = ((network ⟨url, some (.object (h.timed fields))⟩ s).1.accepted url).map (fun _ => ()) ∧
      h' = h ∧ s' = (network ⟨url, some (.object (h.timed fields))⟩ s).2 := by
  rw [put, leads_bind, leads_get]
  show Leads network (send (h.address ++ "/state") (some (.object (h.timed fields))) >>= _) h s _
  rw [leads_bind]
  refine (leads_send parsed sendable _).mono fun T r h' s' sent => ?_
  obtain ⟨rfl, rfl, rfl, rfl⟩ := sent
  cases (network ⟨url, some (.object (h'.timed fields))⟩ s).1.accepted url with
  | ok reply => exact ⟨rfl, rfl, rfl, rfl⟩
  | error cause => exact ⟨rfl, rfl, rfl, rfl⟩

/-- A reading is one request, whose reply has to tell of a light. -/
theorem leads_fetch {url : Web.Url} (parsed : Web.Url.parse? h.address = some url)
    (sendable : url.isSendable = true) :
    Leads network fetch h s fun T r h' s' =>
      T = [⟨h, ⟨url, none⟩, (network ⟨url, none⟩ s).1, s⟩] ∧
      (r = match (network ⟨url, none⟩ s).1.accepted url with
        | .error cause => .error cause
        | .ok reply => match State.ofReply reply with
          | .ok state => .ok state
          | .error issue => .error (.protocol (.notLight issue.message))) ∧
      h' = h ∧ s' = (network ⟨url, none⟩ s).2 := by
  rw [fetch, leads_bind, leads_get]
  show Leads network (send h.address none >>= _) h s _
  rw [leads_bind]
  refine (leads_send parsed sendable none).mono fun T r h' s' sent => ?_
  obtain ⟨rfl, rfl, rfl, rfl⟩ := sent
  cases (network ⟨url, none⟩ s).1.accepted url with
  | error cause => exact ⟨rfl, rfl, rfl, rfl⟩
  | ok reply =>
    dsimp only
    cases State.ofReply reply with
    | ok state => exact ⟨rfl, rfl, rfl, rfl⟩
    | error issue => exact ⟨rfl, rfl, rfl, rfl⟩

end

end Hue

end Lightshow
