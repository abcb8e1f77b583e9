/-
How long the time of a fade lasts on a bridge.

A bridge does not keep the time that changes take: it belongs to the handle, which sends it with
every change.  So a fade goes with the handle that it was set through, and a playback that has lost
its handle and opens a new one goes on without it.

* `takes_perform_of` -- what a call keeps, from what reading and changing the light keep;
* `takes_perform` -- every change of a call carries the time of its handle;
* `changes_carry_time` -- in a whole playback, a change carries the time that was set last since
  a handle was opened;
* `fade_dropped_on_reconnect` -- a playback that goes on without the fade of its script.
-/
import Lightshow.Proofs.Holding
import Lightshow.Proofs.Lossy

namespace Lightshow.Hue

open Talk Json

/-! ### Changes -/

/-- The fields that a request changes, if it changes any. -/
def Request.change? (r : Request) : Option (List (String × Value)) :=
  match r.body with
  | some (.object fields) => some fields
  | _ => none

/-- The field with the time that a change takes. -/
def timeField (fields : List (String × Value)) : Option Value :=
  (Value.object fields).field? transitionName

/-- A time as it stands in a change. -/
def timeValue (tenths : UInt16) : Value := .number (.natural tenths.toNat.toUInt64)

/-- The time that changes through a handle take after a call. -/
def timeAfterCall : Call → Option UInt16 → Option UInt16
  | .setTransition seconds, _ => some (deciseconds seconds)
  | .restoreSnapshot s, _ => s.transition.map deciseconds
  | _, time => time

/-- A change carries the time of its handle. -/
theorem Handle.timeField_timed (h : Handle) {fields : List (String × Value)}
    (untimed : ∀ f ∈ fields, f.1 ≠ transitionName) :
    timeField (h.timed fields) = h.transition.map timeValue := by
  rw [timeField, Handle.timed]
  cases h.transition with
  | none => exact field?_eq_none untimed
  | some tenths => rw [field?_putField, if_pos rfl]; rfl

theorem Request.body_of_change {r : Request} {change : List (String × Value)}
    (h : r.change? = some change) : r.body = some (.object change) := by
  obtain ⟨url, body⟩ := r
  rw [Request.change?] at h
  split at h
  · rename_i hbody
    exact hbody.trans (congrArg _ (congrArg _ (Option.some.inj h)))
  · exact absurd h nofun

section

variable {σ : Type} (network : Request → σ → Outcome × σ)

/-- Whatever comes back, what is sent is sent as it is, and the handle stays as it is. -/
theorem leads_sending (address : String) (body : Option Value) (h : Handle) (s : σ) :
    Leads network (send address body) h s fun T _ h' _ =>
      h' = h ∧ ∀ t ∈ T, t.question.body = body := by
  rw [send]
  cases Web.Url.parse? address with
  | none => exact ⟨rfl, List.forall_mem_nil _⟩
  | some url =>
    dsimp only
    by_cases refused : (!url.isSendable) = true
    · rw [if_pos refused]
      exact ⟨rfl, List.forall_mem_nil _⟩
    · rw [if_neg refused]
      show Leads network (ask ⟨url, body⟩ >>= _) h s _
      rw [leads_ask_bind]
      cases (network ⟨url, body⟩ s).1.accepted url with
      | ok reply => exact ⟨rfl, List.forall_mem_singleton.mpr rfl⟩
      | error cause => exact ⟨rfl, List.forall_mem_singleton.mpr rfl⟩

/-- Fields are changed in one request, with the time of the handle. -/
theorem leads_putting (fields : List (String × Value)) (h : Handle) (s : σ) :
    Leads network (put fields) h s fun T _ h' _ =>
      h' = h ∧ ∀ t ∈ T, t.question.body = some (.object (h.timed fields)) := by
  rw [put, leads_bind, leads_get]
  show Leads network (send (h.address ++ "/state") (some (.object (h.timed fields))) >>= _) h s _
  rw [leads_bind]
  refine (leads_sending network _ _ h s).mono fun T r h' s' sent => ?_
  cases r with
  | error cause => exact sent
  | ok reply =>
    obtain ⟨same, bodies⟩ := sent
    exact ⟨same, (List.append_nil T).symm ▸ bodies⟩

/-- A reading changes nothing. -/
theorem leads_reading_only (h : Handle) (s : σ) :
    Leads network fetch h s fun T _ h' _ => h' = h ∧ ∀ t ∈ T, t.question.change? = none := by
  rw [fetch, leads_bind, leads_get]
  show Leads network (send h.address none >>= _) h s _
  rw [leads_bind]
  refine (leads_sending network h.address none h s).mono fun T r h' s' sent => ?_
  obtain ⟨rfl, bodies⟩ := sent
  have unchanged : ∀ t ∈ T, t.question.change? = none := fun t ht => by
    rw [Request.change?, bodies t ht]
  cases r with
  | error cause => exact ⟨rfl, unchanged⟩
  | ok reply =>
    dsimp only
    cases State.ofReply reply with
    | ok state => exact ⟨rfl, (List.append_nil T).symm ▸ unchanged⟩
    | error issue => exact ⟨rfl, (List.append_nil T).symm ▸ unchanged⟩

/-- Changes carry that time, if there is one. -/
def timely (σ : Type) (time : Option UInt16) : Chronicle Unit Handle Request (fun _ => Outcome) σ :=
  .each fun t => ∀ change ∈ t.question.change?, timeField change = time.map timeValue

/-- Changes through the handle take that time. -/
abbrev Timed (time : Option UInt16) (_ : Unit) (h : Handle) (_ : σ) : Prop := h.transition = time

variable {time : Option UInt16}

theorem keeps_fetch : Keeps network (timely σ time) (Timed time) (fun _ => Timed time) fetch := by
  refine keeps_always.mpr fun m h s known => ?_
  refine (leads_reading_only network h s).mono fun T r h' s' reading => ?_
  obtain ⟨rfl, unchanged⟩ := reading
  refine ⟨Chronicle.holds_each.mpr fun t ht change hc => ?_, known⟩
  exact absurd ((unchanged t ht).symm.trans hc) nofun

/-- A change carries the time of the handle. -/
theorem keeps_put {fields : List (String × Value)} (untimed : ∀ f ∈ fields, f.1 ≠ transitionName) :
    Keeps network (timely σ time) (Timed time) (fun _ => Timed time) (put fields) := by
  refine keeps_always.mpr fun m h s known => ?_
  have carried := h.timeField_timed untimed
  refine (leads_putting network fields h s).mono fun T r h' s' sent => ?_
  obtain ⟨rfl, bodies⟩ := sent
  refine ⟨Chronicle.holds_each.mpr fun t ht change hc => ?_, known⟩
  have body := (bodies t ht).symm.trans (Request.body_of_change hc)
  obtain rfl := Value.object.inj (Option.some.inj body)
  rw [carried, show h'.transition = time from known]

/-- A call does no more than to set the time of its handle, and then to read and to change the light. -/
theorem takes_perform_of {X : Type} {chronicle : Chronicle X Handle Request (fun _ => Outcome) σ}
    {before inv : X → Handle → σ → Prop} {c : Call}
    (sets : ∀ m h s, before m h s → inv m { h with transition := timeAfterCall c h.transition } s)
    (fetches : Keeps network chronicle inv (fun _ => inv) fetch)
    (puts : ∀ fields : List (String × Value), (∀ f ∈ fields, f.1 ≠ transitionName) →
      Keeps network chronicle inv (fun _ => inv) (put fields)) :
    Takes network chronicle before (perform c) fun _ => inv := by
  have reads {α : Type} (f : State → Operation α)
      (answers : ∀ state, Keeps network chronicle inv (fun _ => inv) (f state)) :
      Takes network chronicle inv (fetch >>= f) fun _ => inv :=
    keeps_always.mp (keeps_bind fetches answers)
  have untimed (c : Call) : ∀ f ∈ changes c, f.1 ≠ transitionName :=
    fun f hf => (changes_settable c f hf).2
  have changes : Takes network chronicle inv (put (changes c)) fun _ => inv :=
    keeps_always.mp (puts _ (untimed c))
  have first {α : Type} {x : Operation α} (sets : ∀ m h s, before m h s → inv m h s)
      (h : Takes network chronicle inv x fun _ => inv) : Takes network chronicle before x fun _ => inv :=
    h.mono sets fun _ _ _ _ hi => hi
  cases c with
  | getRgb => exact first sets (reads _ fun _ => keeps_pure)
  | getHue => exact first sets (reads _ fun _ => keeps_pure)
  | getSaturation => exact first sets (reads _ fun _ => keeps_pure)
  | getBrightness => exact first sets (reads _ fun _ => keeps_pure)
  | getTransition => exact first sets (keeps_always.mp (keeps_bind keeps_get fun _ => keeps_pure))
  | saveSnapshot => exact first sets (reads _ fun _ => keeps_bind keeps_get fun _ => keeps_pure)
  | setRgb rgb => exact first sets changes
  | setHue hue => exact first sets changes
  | setSaturation level => exact first sets changes
  | setBrightness level => exact first sets changes
  | setHsb hsb => exact first sets changes
  | turnOn => exact first sets changes
  | turnOff => exact first sets changes
  | setTransition seconds => exact takes_modify sets
  | restoreSnapshot s =>
    have colour : ∀ f ∈ putField "on" (.bool true) (colorFields s.hsb), f.1 ≠ transitionName := by
      intro f hf
      rcases mem_putField hf with rfl | hf
      · exact show "on" ≠ transitionName by decide
      · exact untimed (.setHsb s.hsb) f hf
    refine takes_modify_bind (keeps_always.mp (keeps_bind (puts _ colour) fun _ => ?_)) sets
    exact keeps_ite (puts _ (untimed .turnOff)) keeps_pure

/-- Every change of a call carries the time that its handle has after it. -/
theorem takes_perform (c : Call) :
    Takes network (timely σ (timeAfterCall c time)) (Timed time) (perform c)
      fun _ => Timed (timeAfterCall c time) :=
  takes_perform_of network (fun _ _ _ known => congrArg (timeAfterCall c) known) (keeps_fetch network)
    fun _ untimed => keeps_put network untimed

end

/-! ### Playback -/

namespace Outlet

open Player

variable {σ : Type} (network : Network σ)

/-- The changes that are sent at a turn of a playback. -/
def changesAt :
    Turn Player Question Question.Answer (Outlet σ) → List (List (String × Value))
  | ⟨_, .connect, _, o⟩ =>
    (o.connector.connect.turns network o.network).filterMap (·.question.change?)
  | ⟨_, .call index c, _, o⟩ =>
    ((Hue.perform c).turns network (o.handles.getD index o.connector.handle) o.network).filterMap
      (·.question.change?)
  | _ => []

/-- The time that was set last since a handle was opened, after another turn. -/
def timeAfter :
    Option UInt16 → Turn Player Question Question.Answer (Outlet σ) → Option UInt16
  | _, ⟨_, .connect, .ok _, _⟩ => none
  | time, ⟨_, .call _ c, _, _⟩ => timeAfterCall c time
  | time, _ => time

/-- Changes carry the time that was set last since a handle was opened. -/
def fading :
    Chronicle (Option UInt16) Player Question Question.Answer (Outlet σ) where
  step := timeAfter
  along time t := ∀ change ∈ changesAt network t, timeField change = (timeAfter time t).map timeValue

/-- A handle is there, and changes through it take that time. -/
def HasTime (handle : Nat) (time : Option UInt16) (o : Outlet σ) : Prop :=
  ∃ h, o.handles[handle]? = some h ∧ h.transition = time

variable {network}

/-- To open a handle is to read, and changes nothing. -/
theorem changesAt_connect (p : Player) (r : Except BulbError Nat) (o : Outlet σ) :
    changesAt network ⟨p, .connect, r, o⟩ = [] := by
  have turns : o.connector.connect.turns network o.network =
      fetch.turns network o.connector.handle o.network := by
    show ((fetch.run.run o.connector.handle).bind _).turns network o.network = _
    rw [Dialogue.turns_bind]
    refine (congrArg _ ?_).trans (List.append_nil _)
    generalize ((fetch.run.run o.connector.handle).run network o.network).1 = r
    obtain ⟨_ | _, _⟩ := r <;> rfl
  rw [changesAt, turns]
  exact List.filterMap_eq_nil_iff.mpr (leads_reading_only network o.connector.handle o.network).2

/-- Changes through a new handle take no time of their own. -/
theorem hasTime_connect {o : Outlet σ} {handle : Nat}
    (opened : (answer network .connect o).1 = .ok handle) :
    HasTime handle none (answer network .connect o).2 := by
  have same := (leads_reading_only network o.connector.handle o.network).1
  rw [connect_eq] at opened ⊢
  generalize fetch.ending network o.connector.handle o.network = e at same opened ⊢
  obtain ⟨_ | _, h, s⟩ := e
  · exact absurd opened nofun
  · obtain rfl : o.handles.length = handle := Except.ok.inj opened
    exact ⟨h, List.getElem?_concat_length, congrArg Handle.transition same⟩

variable (network)

theorem held_time : Held (answer network) (fading network) HasTime where
  connect time p o := by
    refine ⟨fun change hc => ?_, fun handle opened => ?_⟩
    · rw [changesAt_connect] at hc
      exact absurd hc List.not_mem_nil
    · have new := hasTime_connect opened
      rw [opened]
      exact new
  call handle c time p o hi := by
    obtain ⟨h, found, known⟩ := hi
    have through : o.handles.getD handle o.connector.handle = h := by
      rw [List.getD_eq_getElem?_getD, found, Option.getD_some]
    obtain ⟨holds, after⟩ := takes_perform network c () h o.network known
    refine ⟨fun change hc => ?_, ?_⟩
    · obtain ⟨t, ht, hchange⟩ := List.mem_filterMap.mp hc
      rw [through] at ht
      exact Chronicle.holds_each.mp holds t ht change hchange
    · rw [perform_eq, through]
      refine ⟨_, ?_, after⟩
      rw [List.getElem?_set_self]
      exact (List.getElem?_eq_some_iff.mp found).1
  other q hconnect hcall time p o := by
    cases q with
    | connect => exact absurd rfl hconnect
    | call handle c => exact absurd rfl (hcall handle c)
    | _ => exact ⟨List.forall_mem_nil _, fun _ hi => hi⟩

/-- In a whole playback, whatever is lost, every change carries the time that was set last since a
handle was opened, and no time if none was set since then. -/
theorem changes_carry_time (connector : Connector) (s : σ) (bulb : String) (script : Script)
    (backoff : Backoff) (fuel : Nat) :
    let turns := (run fuel).turns (answer network) (.new bulb script backoff) (.new connector s)
    ∀ n, ∀ t ∈ turns[n]?, ∀ change ∈ changesAt network t,
      timeField change = ((turns.take (n + 1)).foldl timeAfter none).map timeValue := by
  intro turns n t ht
  obtain ⟨short, rfl⟩ := List.getElem?_eq_some_iff.mp ht
  have split : turns = turns.take n ++ turns[n] :: turns.drop (n + 1) := by
    rw [← List.drop_eq_getElem_cons short, List.take_append_drop]
  have holds : (fading network).Holds none turns :=
    ((held_time network).takes_run_held fuel none (.new bulb script backoff) (.new connector s) rfl).1
  rw [split] at holds
  rw [List.take_succ_eq_append_getElem short, List.foldl_append]
  exact holds.along_of_split

/-- The change after a fade carries the time of the fade. -/
theorem changes_carry_time_of_fade :
    let connector := Connector.new "10.0.0.2" "me" "1"
    let bridge : Bridge := ⟨.object [("state", .object [onField false])]⟩
    let script : Script := ⟨[⟨0, .fade, [105]⟩, ⟨0, .hsb, [10, 20, 30]⟩]⟩
    let turns := (run 4).turns (answer Bridge.answer) (.new "1" script .usual)
      (.new connector bridge)
    ∃ t ∈ turns[13]?, ∃ change ∈ changesAt Bridge.answer t,
      ∃ time ∈ (turns.take 14).foldl timeAfter none, timeField change = some (timeValue time) := by
  intro connector bridge script turns
  have sent : (turns[13]?.any fun t => !(changesAt Bridge.answer t).isEmpty) = true := by
    decide +kernel
  obtain ⟨t, ht, changes⟩ := (Option.any_eq_true _ _).mp sent
  obtain ⟨change, hc⟩ := List.exists_mem_of_ne_nil _ (by simpa using changes)
  have faded : ((turns.take 14).foldl timeAfter none).isSome = true := by decide +kernel
  obtain ⟨time, htime⟩ := Option.isSome_iff_exists.mp faded
  have carried :=
    changes_carry_time Bridge.answer connector bridge "1" script .usual 4 13 t ht change hc
  exact ⟨t, ht, change, hc, time, htime, carried.trans (congrArg (Option.map timeValue) htime)⟩

/-- The time of a fade that was done at a turn. -/
def fade? : Turn Player Question Question.Answer (Outlet σ) → Option UInt16
  | ⟨_, .call _ (.setTransition seconds), .ok _, _⟩ => some (deciseconds seconds)
  | _ => none

/-- Not every change that a command sends carries the time of the last fade: here the first change
after a fade is lost, and when it is sent again through a new handle, the time is not in it. -/
theorem fade_dropped_on_reconnect :
    let connector := Connector.new "10.0.0.2" "me" "1"
    let bridge : Bridge := ⟨.object [("state", .object [onField false])]⟩
    let mishaps : Nat → Option Mishap := fun
      | 4 => some ⟨false, .noReply, rfl⟩
      | _ => none
    let script : Script := ⟨[⟨0, .fade, [105]⟩, ⟨0, .hsb, [10, 20, 30]⟩]⟩
    let turns := (run 4).turns (answer Line.answer) (.new "1" script .usual)
      (.new connector ⟨bridge, mishaps⟩)
    ¬∀ n, ∀ t ∈ turns[n]?, t.asker.current.isSome = true → ∀ change ∈ changesAt Line.answer t,
      ∀ time ∈ ((turns.take n).filterMap fade?).getLast?, timeField change = some (timeValue time) := by
  intro connector bridge mishaps script turns all
  have faded : (((turns.take 20).filterMap fade?).getLast?).isSome = true := by decide +kernel
  have sent : (turns[20]?.any fun t => t.asker.current.isSome &&
      (changesAt Line.answer t).any fun change => (timeField change).isNone) = true := by
    decide +kernel
  obtain ⟨time, htime⟩ := Option.isSome_iff_exists.mp faded
  obtain ⟨t, ht, sends⟩ := (Option.any_eq_true _ _).mp sent
  obtain ⟨commanded, changes⟩ := Bool.and_eq_true_iff.mp sends
  obtain ⟨change, hc, untimed⟩ := List.any_eq_true.mp changes
  have carried := all 20 t ht commanded change hc time htime
  rw [carried] at untimed
  exact absurd untimed nofun

end Outlet

end Lightshow.Hue
