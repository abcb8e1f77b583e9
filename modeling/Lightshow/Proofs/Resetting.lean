/-
A snapshot that was put back.

A bridge merges changes into the state of its light.  What a client hears of a change may be
anything, but a change that is accepted was made; any other may have been made or not.  Behind such a
network it does not matter what happens between a snapshot and a successful return to it: the light
is as it was.

* `Serves` -- a network with a bridge behind it;
* `Serves.leads_perform` -- a call keeps the light one that changes can be merged into;
* `Outlet.restores` -- a snapshot that is put back.
-/
import Lightshow.Proofs.Replies

namespace Lightshow.Hue

open Json (Value)
open Talk

/-! ### Bridges behind a network -/

/-- A network with a bridge behind it.  A reading that is accepted tells of the light; a change that
is accepted was merged into it, and one that is not may have been merged or not. -/
structure Serves {σ : Type} (n : Network σ) (bridge : σ → Bridge) (inv : σ → Prop) : Prop where
  reading : ∀ url s, inv s → inv (n ⟨url, none⟩ s).2 ∧ bridge (n ⟨url, none⟩ s).2 = bridge s ∧
    ∀ v, (n ⟨url, none⟩ s).1.accepted url = .ok v → v = (bridge s).light
  changing : ∀ url change s, inv s → (∀ f ∈ change, Settable f) →
    inv (n ⟨url, some (.object change)⟩ s).2 ∧
    (bridge (n ⟨url, some (.object change)⟩ s).2 = bridge s ∨
      bridge (n ⟨url, some (.object change)⟩ s).2 = (bridge s).merge change) ∧
    ∀ v, (n ⟨url, some (.object change)⟩ s).1.accepted url = .ok v →
      bridge (n ⟨url, some (.object change)⟩ s).2 = (bridge s).merge change

/-- A bridge at the end of a line serves, whatever is lost on the line. -/
theorem Line.serves : Serves Line.answer Line.bridge (Line.Good False) where
  reading url l good := by
    obtain ⟨after, read | ⟨cause, failed, -⟩⟩ := good.read url
    · exact ⟨after.1, after.2, fun v h => Except.ok.inj (h.symm.trans read)⟩
    · exact ⟨after.1, after.2, fun v h => nomatch failed.symm.trans h⟩
  changing url change l good settable := by
    obtain ⟨after, ⟨-, made⟩ | ⟨⟨cause, failed, -⟩, kept⟩⟩ := good.change url settable
    · exact ⟨after, Or.inr made, fun _ _ => made⟩
    · exact ⟨after, kept, fun v h => nomatch failed.symm.trans h⟩

/-- The light of a bridge is an object, so that changes can be merged into it. -/
def Bridge.IsObject (b : Bridge) : Prop := ∃ fields, b.light = .object fields

theorem Bridge.IsObject.merge {b : Bridge} (h : b.IsObject) (change : List (String × Value)) :
    (b.merge change).IsObject := by
  obtain ⟨fields, light⟩ := h
  exact ⟨_, congrArg Bridge.light (Bridge.merge_eq light change)⟩

/-- What a bridge says of its light: whether it is on, and its hue and levels. -/
structure Bridge.Shows (b : Bridge) (state : State) : Prop where
  on : b.field "on" = some (.bool state.on)
  hue : b.field "hue" = some (.number (.natural state.hsb.hue.toNat.toUInt64))
  saturation : b.field "sat" = some (.number (.natural state.hsb.saturation.toNat.toUInt64))
  brightness : b.field "bri" = some (.number (.natural state.hsb.brightness.toNat.toUInt64))

section

variable {σ : Type} {n : Network σ} {bridge : σ → Bridge} {inv : σ → Prop}
variable {h : Handle} {s : σ}

/-- A request is asked and its outcome taken, or it cannot be put together. -/
theorem leads_send_or (address : String) (body : Option Value) :
    Leads n (send address body) h s fun _ r h' s' => h' = h ∧
      ((∃ e, r = .error e) ∧ s' = s ∨ ∃ url, r = (n ⟨url, body⟩ s).1.accepted url ∧
        s' = (n ⟨url, body⟩ s).2) := by
  cases parsed : Web.Url.parse? address with
  | none =>
    rw [send, parsed]
    exact ⟨rfl, Or.inl ⟨⟨_, rfl⟩, rfl⟩⟩
  | some url =>
    cases sendable : url.isSendable with
    | false =>
      rw [send, parsed]
      dsimp only
      rw [sendable]
      exact ⟨rfl, Or.inl ⟨⟨_, rfl⟩, rfl⟩⟩
    | true =>
      refine (leads_send parsed sendable body).mono fun T r h' s' sent => ?_
      exact ⟨sent.2.2.1, Or.inr ⟨url, sent.2.1, sent.2.2.2⟩⟩

/-- What a change leads to: if it succeeds, it was merged, and else it may have been. -/
structure Changed (bridge : σ → Bridge) (inv : σ → Prop) (change : List (String × Value)) (s : σ)
    (r : Except BulbError Unit) (s' : σ) : Prop where
  inv : inv s'
  kept : bridge s' = bridge s ∨ bridge s' = (bridge s).merge change
  made : r = .ok () → bridge s' = (bridge s).merge change

theorem Serves.leads_put (serves : Serves n bridge inv) (hs : inv s)
    {fields : List (String × Value)} (settable : ∀ f ∈ fields, Settable f) :
    Leads n (put fields) h s fun _ r h' s' => h' = h ∧ Changed bridge inv (h.timed fields) s r s' := by
  rw [put, leads_bind, leads_get]
  show Leads n (send (h.address ++ "/state") (some (.object (h.timed fields))) >>= _) h s _
  rw [leads_bind]
  refine (leads_send_or _ _).mono fun T r h' s' sent => ?_
  obtain ⟨rfl, ⟨⟨e, rfl⟩, rfl⟩ | ⟨url, rfl, rfl⟩⟩ := sent
  · exact ⟨rfl, hs, Or.inl rfl, fun done => by cases done⟩
  · obtain ⟨after, kept, made⟩ := serves.changing url _ s hs (h'.timed_settable settable)
    cases accepted : (n ⟨url, some (.object (h'.timed fields))⟩ s).1.accepted url with
    | ok v => exact ⟨rfl, after, kept, fun _ => made v accepted⟩
    | error cause => exact ⟨rfl, after, kept, fun done => by cases done⟩

theorem Serves.leads_fetch (serves : Serves n bridge inv) (hs : inv s) :
    Leads n fetch h s fun _ r h' s' => h' = h ∧ inv s' ∧ bridge s' = bridge s ∧
      ∀ state, r = .ok state → TellsLight (bridge s).light state := by
  rw [fetch, leads_bind, leads_get]
  show Leads n (send h.address none >>= _) h s _
  rw [leads_bind]
  refine (leads_send_or _ _).mono fun T r h' s' sent => ?_
  obtain ⟨rfl, ⟨⟨e, rfl⟩, rfl⟩ | ⟨url, rfl, rfl⟩⟩ := sent
  · exact ⟨rfl, hs, rfl, fun _ done => by cases done⟩
  · obtain ⟨after, same, told⟩ := serves.reading url s hs
    cases accepted : (n ⟨url, none⟩ s).1.accepted url with
    | error cause => exact ⟨rfl, after, same, fun _ done => by cases done⟩
    | ok v =>
      obtain rfl := told v accepted
      obtain ⟨_, _, text⟩ := (Outcome.accepted_eq_ok_iff.mp accepted).1.text
      dsimp only
      cases read : State.ofReply (bridge s).light with
      | error issue => exact ⟨rfl, after, same, fun _ done => by cases done⟩
      | ok state =>
        refine ⟨rfl, after, same, fun _ eq => ?_⟩
        exact Except.ok.inj eq ▸ (State.ofReply_eq_ok_iff text).mp read

theorem Changed.isObject {change : List (String × Value)} {r : Except BulbError Unit} {s' : σ}
    (changed : Changed bridge inv change s r s') (object : (bridge s).IsObject) :
    (bridge s').IsObject := by
  rcases changed.kept with same | merged
  · exact same ▸ object
  · exact merged ▸ object.merge change

/-- The fields that a snapshot sets while it is put back, in order.  The light is turned on first, and
off again in the end if it was off. -/
def restoring (snapshot : Snapshot) : List (String × Value) :=
  Json.putField "on" (.bool true) (colorFields snapshot.hsb) ++
    if snapshot.on then [] else [onField false]

theorem restoring_settable (snapshot : Snapshot) :
    ∀ f ∈ restoring snapshot, Settable f ∧ f.1 ≠ transitionName := by
  intro f hf
  have on (b : Bool) : Settable (onField b) ∧ (onField b).1 ≠ transitionName :=
    ⟨settable_on b, show "on" ≠ transitionName by decide⟩
  rcases List.mem_append.mp hf with hf | hf
  · rcases Json.mem_putField hf with rfl | hf
    · exact on true
    · exact changes_settable (.setHsb snapshot.hsb) f hf
  · split at hf
    · cases hf
    · exact List.mem_singleton.mp hf ▸ on false

/-- What a change merges does not depend on the time that it takes. -/
theorem Changed.field {fields : List (String × Value)} {r : Except BulbError Unit} {s' : σ}
    (changed : Changed bridge inv (h.timed fields) s r s') (object : (bridge s).IsObject)
    (lasting : ∀ f ∈ fields, f.1 ≠ transitionName) (done : r = .ok ()) (name : String) :
    (bridge s').field name = lastField name ((bridge s).field name) fields := by
  obtain ⟨_, light⟩ := object
  rw [changed.made done, Bridge.field_merge light, h.filter_timed lasting]

/-- Putting back a snapshot sets its fields, if nothing fails. -/
theorem Serves.leads_restore (serves : Serves n bridge inv) (hs : inv s)
    (object : (bridge s).IsObject) (snapshot : Snapshot) :
    Leads n (perform (.restoreSnapshot snapshot)) h s fun _ r _ s' =>
      (inv s' ∧ (bridge s').IsObject) ∧ (r = .ok () → ∀ name, (bridge s').field name =
        lastField name ((bridge s).field name) (restoring snapshot)) := by
  have fields := restoring_settable snapshot
  rw [restoring, List.forall_mem_append] at fields
  obtain ⟨first, last⟩ := fields
  rw [perform, leads_bind, leads_modify]
  dsimp only
  rw [leads_bind]
  refine (serves.leads_put hs fun f hf => (first f hf).1).mono fun T r h' s' changed => ?_
  obtain ⟨rfl, changed⟩ := changed
  cases r with
  | error e => exact ⟨⟨changed.inv, changed.isObject object⟩, nofun⟩
  | ok _ =>
    -- a light that was off is turned off by a second change
    have found := changed.field object (fun f hf => (first f hf).2) rfl
    unfold restoring
    cases on : snapshot.on with
    | true =>
      refine ⟨⟨changed.inv, changed.isObject object⟩, fun _ name => ?_⟩
      rw [if_pos rfl, List.append_nil]
      exact found name
    | false =>
      rw [on] at last
      refine (serves.leads_put changed.inv fun f hf => (last f hf).1).mono fun _ r' _ s'' later => ?_
      refine ⟨⟨later.2.inv, later.2.isObject (changed.isObject object)⟩, fun done name => ?_⟩
      rw [later.2.field (changed.isObject object) (fun f hf => (last f hf).2) done, found,
        if_neg Bool.false_ne_true]
      exact (List.foldl_append ..).symm

/-- A call leaves a light that changes can be merged into. -/
theorem Serves.leads_perform (serves : Serves n bridge inv) (hs : inv s)
    (object : (bridge s).IsObject) (c : Call) :
    Leads n (perform c) h s fun _ _ _ s' => inv s' ∧ (bridge s').IsObject := by
  have reads {β : Type} (f : State → Operation β) (quiet : ∀ st h s, Leads n (f st) h s
      fun _ _ _ s' => s' = s) : Leads n (fetch >>= f) h s
        fun _ _ _ s' => inv s' ∧ (bridge s').IsObject := by
    rw [leads_bind]
    refine (serves.leads_fetch hs).mono fun T r h' s' told => ?_
    obtain ⟨-, after, same, -⟩ := told
    have kept : inv s' ∧ (bridge s').IsObject := ⟨after, same ▸ object⟩
    cases r with
    | error e => exact kept
    | ok state => exact (quiet state h' s').mono fun _ _ _ _ eq => eq ▸ kept
  have puts : Leads n (put (changes c)) h s fun _ _ _ s' => inv s' ∧ (bridge s').IsObject :=
    (serves.leads_put hs fun f hf => (changes_settable c f hf).1).mono fun _ _ _ _ changed =>
      ⟨changed.2.inv, changed.2.isObject object⟩
  cases c with
  | getRgb => exact reads _ fun _ _ _ => rfl
  | getHue => exact reads _ fun _ _ _ => rfl
  | getSaturation => exact reads _ fun _ _ _ => rfl
  | getBrightness => exact reads _ fun _ _ _ => rfl
  | saveSnapshot => exact reads _ fun _ _ _ => rfl
  | getTransition => exact ⟨hs, object⟩
  | setTransition seconds => exact ⟨hs, object⟩
  | restoreSnapshot snapshot =>
    exact (serves.leads_restore hs object snapshot).mono fun _ _ _ _ kept => kept.1
  | _ => exact puts

end

/-! ### Snapshots -/

/-- A light that is an object has an object for its state, if it has any field of it. -/
theorem Bridge.isObject_of_field {b : Bridge} {name : String} {v : Value}
    (h : b.field name = some v) : ∃ fields, b.light = .object fields ∧
      (Value.object fields).field? stateName = some (.object b.state) := by
  cases found : b.light.field? stateName with
  | none =>
    rw [field, state, found] at h
    cases h
  | some whole =>
    rw [field, state, found] at h
    cases whole with
    | object state =>
      obtain ⟨value⟩ := b
      cases value with
      | object fields => exact ⟨fields, rfl, by rw [Bridge.state, found]⟩
      | _ => cases found
    | _ => cases h

theorem eq_of_amounts {m n : Nat} (small : m < 65536)
    (h : Amounts (some (.number (.natural m.toUInt64))) n) : n = m := by
  obtain ⟨k, same, rfl⟩ := h
  obtain rfl := Json.Number.natural.inj (Value.number.inj same)
  exact UInt64.toNat_ofNat_of_lt (Nat.lt_trans small (by decide))

theorem boundedLevel_of_le {level : UInt8} (h : level ≤ levelLimit) : boundedLevel level = level :=
  if_pos h

namespace Bridge.Shows

variable {b : Bridge} {state state' : State}

theorem isObject (shows : b.Shows state) : b.IsObject := by
  obtain ⟨fields, light, -⟩ := isObject_of_field shows.on
  exact ⟨fields, light⟩

/-- A light is understood as what it says. -/
theorem eq_of_tells (shows : b.Shows state) (tells : TellsLight b.light state') :
    state' = state := by
  obtain ⟨fields, light, found⟩ := isObject_of_field shows.on
  obtain ⟨part, here, inner⟩ := tells.state
  rw [light] at here
  obtain rfl := Option.some.inj (found.symm.trans here)
  have on : state'.on = state.on := Value.bool.inj (Option.some.inj (inner.on.symm.trans shows.on))
  have hue : state'.hsb.hue = state.hsb.hue :=
    UInt16.toNat_inj.mp (eq_of_amounts state.hsb.hue.toNat_lt (shows.hue ▸ inner.hue))
  have level {l l' : UInt8} (h : Amounts (some (.number (.natural l.toNat.toUInt64))) l'.toNat) :
      l' = l :=
    UInt8.toNat_inj.mp (eq_of_amounts (Nat.lt_trans l.toNat_lt (by decide)) h)
  have saturation : state'.hsb.saturation = state.hsb.saturation := level (by
    rw [← shows.saturation]
    exact inner.saturation)
  have brightness : state'.hsb.brightness = state.hsb.brightness := level (by
    rw [← shows.brightness]
    exact inner.brightness)
  obtain ⟨_, _, _, _⟩ := state
  obtain ⟨_, _, _, _⟩ := state'
  obtain rfl := on
  obtain rfl := hue
  obtain rfl := saturation
  obtain rfl := brightness
  rfl

/-- A light says what the snapshot that was put back says. -/
theorem of_restoring {b' : Bridge} {snapshot : Snapshot}
    (found : ∀ name, b'.field name = lastField name (b.field name) (restoring snapshot))
    (saturation : snapshot.hsb.saturation ≤ levelLimit)
    (brightness : snapshot.hsb.brightness ≤ levelLimit) : b'.Shows ⟨snapshot.on, snapshot.hsb⟩ := by
  have fields : restoring snapshot = [brightnessField snapshot.hsb.brightness,
      hueField snapshot.hsb.hue, onField true, saturationField snapshot.hsb.saturation] ++
        if snapshot.on then [] else [onField false] := rfl
  rw [fields, brightnessField, saturationField, boundedLevel_of_le saturation,
    boundedLevel_of_le brightness] at found
  obtain ⟨on, hsb, transition⟩ := snapshot
  cases on <;> exact ⟨found "on", found "hue", found "sat", found "bri"⟩

end Bridge.Shows

namespace Outlet

variable {σ : Type} {n : Network σ} {bridge : σ → Bridge} {inv : σ → Prop} {o : Outlet σ}

/-- Whatever is asked, changes can still be merged into the light. -/
theorem answer_keeps (serves : Serves n bridge inv) (q : Question)
    (h : inv o.network ∧ (bridge o.network).IsObject) :
    inv (answer n q o).2.network ∧ (bridge (answer n q o).2.network).IsObject := by
  cases q with
  | connect =>
    have read := serves.leads_fetch (h := o.connector.handle) h.1
    rw [leads_iff] at read
    rw [connect_eq]
    generalize fetch.ending n o.connector.handle o.network = e at read ⊢
    obtain ⟨result, handle, network⟩ := e
    obtain ⟨-, after, same, -⟩ := read
    cases result with
    | ok state => exact ⟨after, same ▸ h.2⟩
    | error cause => exact ⟨after, same ▸ h.2⟩
  | call index c => exact serves.leads_perform h.1 h.2 c
  | _ => exact h

theorem answers_keep (serves : Serves n bridge inv) (qs : List Question)
    (h : inv o.network ∧ (bridge o.network).IsObject) :
    inv (qs.foldl (fun o q => (answer n q o).2) o).network ∧
      (bridge (qs.foldl (fun o q => (answer n q o).2) o).network).IsObject := by
  induction qs generalizing o with
  | nil => exact h
  | cons q qs ih => exact ih (answer_keeps serves q h)

/-- A snapshot that is saved tells what the light says. -/
theorem state_of_saved (serves : Serves n bridge inv) (fit : inv o.network) {state : State}
    (shows : (bridge o.network).Shows state) {index : Nat} {snapshot : Snapshot}
    (saved : (answer n (.call index .saveSnapshot) o).1 = .ok snapshot) :
    (⟨snapshot.on, snapshot.hsb⟩ : State) = state := by
  have told : Leads n (Hue.perform .saveSnapshot) (o.handles.getD index o.connector.handle) o.network
      fun _ r _ _ => ∀ snapshot, r = .ok snapshot →
        (⟨snapshot.on, snapshot.hsb⟩ : State) = state := by
    refine leads_bind.mpr ((serves.leads_fetch fit).mono fun T r h' s' told => ?_)
    obtain ⟨-, -, -, tells⟩ := told
    cases r with
    | error e => exact fun _ => nofun
    | ok state' =>
      refine leads_bind.mpr (leads_get.mpr fun snapshot saved => ?_)
      obtain rfl := Except.ok.inj saved
      exact shows.eq_of_tells (tells state' rfl)
  rw [result_call] at saved
  exact told snapshot saved

/-- A snapshot that is put back sets its fields. -/
theorem field_of_restored (serves : Serves n bridge inv)
    (h : inv o.network ∧ (bridge o.network).IsObject) {index : Nat} {snapshot : Snapshot}
    (restored : (answer n (.call index (.restoreSnapshot snapshot)) o).1 = .ok ()) (name : String) :
    (bridge (answer n (.call index (.restoreSnapshot snapshot)) o).2.network).field name =
      lastField name ((bridge o.network).field name) (restoring snapshot) := by
  have sets : Leads n (Hue.perform (.restoreSnapshot snapshot))
      (o.handles.getD index o.connector.handle) o.network fun _ r _ s' => r = .ok () → ∀ name,
        (bridge s').field name = lastField name ((bridge o.network).field name) (restoring snapshot) :=
    (serves.leads_restore h.1 h.2 snapshot).mono fun _ _ _ _ set => set.2
  rw [result_call] at restored
  rw [network_call]
  exact sets restored name

/-- **A snapshot that is put back restores the light.**  The snapshot was taken of a light that says
whether it is on, its hue and its levels, with levels that the bridge accepts.  Whatever was asked
since, through whatever handles and with whatever outcomes, when putting the snapshot back succeeds
the light says the same again. -/
theorem restores (serves : Serves n bridge inv) (fit : inv o.network) {state : State}
    (shows : (bridge o.network).Shows state) (saturation : state.hsb.saturation ≤ levelLimit)
    (brightness : state.hsb.brightness ≤ levelLimit) {i j : Nat} {snapshot : Snapshot}
    (saved : (answer n (.call i .saveSnapshot) o).1 = .ok snapshot) (between : List Question)
    {o' : Outlet σ} (since : o' = between.foldl (fun o q => (answer n q o).2)
      (answer n (.call i .saveSnapshot) o).2)
    (restored : (answer n (.call j (.restoreSnapshot snapshot)) o').1 = .ok ()) :
    (bridge (answer n (.call j (.restoreSnapshot snapshot)) o').2.network).Shows state := by
  -- the snapshot holds all that the light showed, so of what was asked since it only matters that
  -- the light can still be changed
  have here := answers_keep serves between
    (answer_keeps serves (.call i .saveSnapshot) ⟨fit, shows.isObject⟩)
  rw [← since] at here
  obtain rfl := state_of_saved serves fit shows saved
  exact .of_restoring (field_of_restored serves here restored) saturation brightness

/-- Two attempts to put back a snapshot fail: the reply to the first change is lost, and then the second
change. -/
theorem restores_after_two_failures :
    let state : State := ⟨false, ⟨300, 20, 10⟩⟩
    let fields := Json.putField "on" (.bool false) (colorFields state.hsb)
    let mishaps : Nat → Option Mishap := fun
      | 3 => some ⟨true, .noReply, rfl⟩
      | 5 => some ⟨false, .reply 503 "", rfl⟩
      | _ => none
    let o := Outlet.new (Connector.new "10.0.0.2" "me" "1")
      (⟨⟨.object [("state", .object fields)]⟩, mishaps⟩ : Line)
    let snapshot : Snapshot := ⟨state.on, state.hsb, none⟩
    let o' := [.connect, .call 0 (.setHsb ⟨1, 2, 3⟩), .call 0 (.restoreSnapshot snapshot),
      .call 1 (.restoreSnapshot snapshot)].foldl (fun o q => (answer Line.answer q o).2)
        (answer Line.answer (.call 0 .saveSnapshot) o).2
    (answer Line.answer (.call 0 .saveSnapshot) o).1 = .ok snapshot ∧
      (o'.network.bridge.field "on").any (fun on => on.write = "true") = true ∧
      (answer Line.answer (.call 0 (.restoreSnapshot snapshot)) o').1 = .ok () ∧
      (answer Line.answer (.call 0 (.restoreSnapshot snapshot)) o').2.network.bridge.Shows state := by
  intro state fields mishaps o snapshot o'
  have isState : IsState fields := by
    refine .of_settable (Json.Ordered.putField (by unfold Json.Ordered; decide +kernel) _ _) rfl ?_
    intro f hf
    rcases Json.mem_putField hf with rfl | hf
    · exact settable_on false
    · exact (changes_settable (.setHsb state.hsb) f hf).1
  have sound : o.network.bridge.Sound [("state", .object fields)] := .of_isState isState
  have shows : o.network.bridge.Shows state := ⟨rfl, rfl, rfl, rfl⟩
  have saved : (answer Line.answer (.call 0 .saveSnapshot) o).1 = .ok snapshot := by
    have told : (match (answer Line.answer (.call 0 .saveSnapshot) o).1 with
      | .ok s => s.on = state.on && s.hsb = state.hsb && s.transition.isNone
      | .error _ => false) = true := by decide +kernel
    cases result : (answer Line.answer (.call 0 .saveSnapshot) o).1 with
    | error _ => rw [result] at told; cases told
    | ok s =>
      rw [result] at told
      obtain ⟨on, hsb, transition⟩ := s
      simp only [Bool.and_eq_true, decide_eq_true_eq, Option.isNone_iff_eq_none] at told
      obtain ⟨⟨rfl, rfl⟩, rfl⟩ := told
      rfl
  have restored : (answer Line.answer (.call 0 (.restoreSnapshot snapshot)) o').1 = .ok () := by
    have isOk : (answer Line.answer (.call 0 (.restoreSnapshot snapshot)) o').1.isOk = true := by
      decide +kernel
    cases result : (answer Line.answer (.call 0 (.restoreSnapshot snapshot)) o').1 with
    | ok _ => rfl
    | error _ => rw [result] at isOk; cases isOk
  have levels : state.hsb.saturation ≤ levelLimit ∧ state.hsb.brightness ≤ levelLimit := by
    decide +kernel
  exact ⟨saved, by decide +kernel, restored,
    restores Line.serves ⟨⟨_, sound⟩, nofun⟩ shows levels.1 levels.2 saved _ rfl restored⟩

end Outlet

end Lightshow.Hue
