/-
Lost replies do no harm.

On its way to a bridge a request can be lost before the bridge has carried it out, or its reply can
be lost afterwards; the client cannot tell which.  For scripts of plain commands it does not matter:
a command is made again until its reply comes through, and to make it again changes nothing more.

* `Mishap`, `Line` -- a bridge at the end of a line on which requests and replies are lost;
* `Outlet.fair` -- playback through such a line as a fair world;
* `Outlet.lost_replies_leave_no_trace` -- a playback with losses beside the same one without.
-/
import Lightshow.Hue.Outlet
import Lightshow.Proofs.Bridging
import Lightshow.Proofs.Course
import Lightshow.Proofs.Rendition

namespace Lightshow.Hue

open Talk

/-! ### Lines -/

/-- Whether a client takes what comes back as no reply at all. -/
def Outcome.isLoss : Outcome → Bool
  | .noReply => true
  | .reply status _ => Web.Status.isServerError status

/-- A request that gets no reply, or one that counts like none. -/
structure Mishap where
  /-- Whether the bridge carries the request out nevertheless. -/
  applied : Bool
  outcome : Outcome
  loss : outcome.isLoss = true

/-- What is lost cannot be told from an outage. -/
theorem Mishap.accepted (m : Mishap) (url : Web.Url) :
    ∃ cause, m.outcome.accepted url = .error cause ∧ cause.isConnectivity = true := by
  obtain ⟨applied, outcome, loss⟩ := m
  cases outcome with
  | noReply => exact ⟨_, rfl, rfl⟩
  | reply status body => exact ⟨_, if_pos loss, rfl⟩

/-- A bridge, and the mishaps of the requests to come. -/
structure Line where
  bridge : Bridge
  mishaps : Nat → Option Mishap

namespace Line

/-- The line after a request. -/
def after (l : Line) (bridge : Bridge) : Line := ⟨bridge, fun n => l.mishaps (n + 1)⟩

/-- What comes back for a request, and the line after it. -/
def answer (r : Request) (l : Line) : Outcome × Line :=
  match l.mishaps 0 with
  | none => ((l.bridge.answer r).1, l.after (l.bridge.answer r).2)
  | some m => (m.outcome, l.after (if m.applied then (l.bridge.answer r).2 else l.bridge))

/-- At the end of the line is a light that can be understood; if the line is sure, nothing is
lost. -/
structure Good (sure : Prop) (l : Line) : Prop where
  sound : ∃ fields, l.bridge.Sound fields
  clear : sure → ∀ n, l.mishaps n = none

variable {sure : Prop} {l : Line}

theorem Good.after (h : l.Good sure) {bridge : Bridge} (sound : ∃ fields, bridge.Sound fields) :
    (l.after bridge).Good sure :=
  ⟨sound, fun certain n => h.clear certain (n + 1)⟩

/-- A reading tells of the light, or it is lost. -/
theorem Good.read (h : l.Good sure) (url : Web.Url) :
    ((answer ⟨url, none⟩ l).2.Good sure ∧ (answer ⟨url, none⟩ l).2.bridge = l.bridge) ∧
    ((answer ⟨url, none⟩ l).1.accepted url = .ok l.bridge.light ∨
      ∃ cause, (answer ⟨url, none⟩ l).1.accepted url = .error cause ∧
        cause.isConnectivity = true ∧ ¬sure) := by
  obtain ⟨fields, sound⟩ := h.sound
  rw [answer]
  cases lost : l.mishaps 0 with
  | none => exact ⟨⟨h.after h.sound, rfl⟩, Or.inl (sound.accepted url)⟩
  | some m =>
    have unsure : ¬sure := fun certain => absurd (lost.symm.trans (h.clear certain 0)) nofun
    obtain ⟨cause, failed, conn⟩ := m.accepted url
    have same : (if m.applied then (l.bridge.answer ⟨url, none⟩).2 else l.bridge) = l.bridge := by
      split <;> rfl
    dsimp only
    rw [same]
    exact ⟨⟨h.after h.sound, rfl⟩, Or.inr ⟨cause, failed, conn, unsure⟩⟩

/-- A change is made, or it is lost, and then it may have been made or not. -/
theorem Good.change (h : l.Good sure) (url : Web.Url) {change : List (String × Json.Value)}
    (settable : ∀ f ∈ change, Settable f) :
    (answer ⟨url, some (.object change)⟩ l).2.Good sure ∧
    ((∃ reply, (answer ⟨url, some (.object change)⟩ l).1.accepted url = .ok reply) ∧
        (answer ⟨url, some (.object change)⟩ l).2.bridge = l.bridge.merge change ∨
      (∃ cause, (answer ⟨url, some (.object change)⟩ l).1.accepted url = .error cause ∧
          cause.isConnectivity = true ∧ ¬sure) ∧
        ((answer ⟨url, some (.object change)⟩ l).2.bridge = l.bridge ∨
          (answer ⟨url, some (.object change)⟩ l).2.bridge = l.bridge.merge change)) := by
  obtain ⟨fields, sound⟩ := h.sound
  have merged := sound.merge settable
  rw [answer]
  cases lost : l.mishaps 0 with
  | none => exact ⟨h.after merged, Or.inl ⟨⟨_, accepted_success settable url⟩, rfl⟩⟩
  | some m =>
    have unsure : ¬sure := fun certain => absurd (lost.symm.trans (h.clear certain 0)) nofun
    obtain ⟨cause, failed, conn⟩ := m.accepted url
    dsimp only
    by_cases applied : m.applied = true
    · rw [if_pos applied]
      exact ⟨h.after merged, Or.inr ⟨⟨cause, failed, conn, unsure⟩, Or.inr rfl⟩⟩
    · rw [if_neg applied]
      exact ⟨h.after h.sound, Or.inr ⟨⟨cause, failed, conn, unsure⟩, Or.inl rfl⟩⟩

end Line

/-! ### Operations -/

/-- Requests for a light and for its state can be sent. -/
structure Reaches (address : String) : Prop where
  light : (Web.Url.parse? address).any Web.Url.isSendable = true
  state : (Web.Url.parse? (address ++ "/state")).any Web.Url.isSendable = true

section

variable {sure : Prop} {h : Handle} {l : Line}

/-- A light is read, or the reading is lost. -/
theorem leads_reading (good : l.Good sure) (reaches : Reaches h.address) :
    Leads Line.answer fetch h l fun _ r h' l' =>
      h' = h ∧ (l'.Good sure ∧ l'.bridge = l.bridge) ∧
        ((∃ state, r = .ok state) ∨
          ∃ cause, r = .error cause ∧ cause.isConnectivity = true ∧ ¬sure) := by
  obtain ⟨url, parsed, sendable⟩ := (Option.any_eq_true _ _).mp reaches.light
  refine (leads_fetch parsed sendable).mono fun T r h' l' asked => ?_
  obtain ⟨-, result, rfl, rfl⟩ := asked
  obtain ⟨after, read | ⟨cause, failed, conn⟩⟩ := good.read url
  · obtain ⟨fields, sound⟩ := good.sound
    obtain ⟨state, told⟩ := sound.ofReply
    rw [read] at result
    dsimp only at result
    rw [told] at result
    exact ⟨rfl, after, Or.inl ⟨state, result⟩⟩
  · rw [failed] at result
    exact ⟨rfl, after, Or.inr ⟨cause, result, conn⟩⟩

/-- What a call sets is set, or the call is lost, and then it may be set or not. -/
theorem leads_setting (good : l.Good sure) (reaches : Reaches h.address) {c : Call}
    (setting : c.isSetting = true) :
    Leads Line.answer (perform c) h l fun _ r h' l' =>
      h'.address = h.address ∧ l'.Good sure ∧
        ((∃ reply, r = .ok reply) ∧ l'.bridge.field = afterCall l.bridge.field c ∨
          (∃ cause, r = .error cause ∧ cause.isConnectivity = true ∧ ¬sure) ∧
            (l'.bridge.field = l.bridge.field ∨
              l'.bridge.field = afterCall l.bridge.field c)) := by
  have puts : Leads Line.answer (put (changes c)) h l fun _ r h' l' =>
      h'.address = h.address ∧ l'.Good sure ∧
        ((∃ reply, r = .ok reply) ∧ l'.bridge.field = afterCall l.bridge.field c ∨
          (∃ cause, r = .error cause ∧ cause.isConnectivity = true ∧ ¬sure) ∧
            (l'.bridge.field = l.bridge.field ∨
              l'.bridge.field = afterCall l.bridge.field c)) := by
    obtain ⟨url, parsed, sendable⟩ := (Option.any_eq_true _ _).mp reaches.state
    refine (leads_put parsed sendable (changes c)).mono fun T r h' l' asked => ?_
    obtain ⟨-, result, rfl, rfl⟩ := asked
    have settable : ∀ f ∈ changes c, Settable f := fun f hf => (changes_settable c f hf).1
    have lasting : ∀ f ∈ changes c, f.1 ≠ transitionName := fun f hf => (changes_settable c f hf).2
    obtain ⟨after, outcome⟩ := good.change url (h'.timed_settable settable)
    obtain ⟨fields, sound⟩ := good.sound
    have merged : (l.bridge.merge (h'.timed (changes c))).field = afterCall l.bridge.field c := by
      funext name
      rw [Bridge.field_merge sound.light, h'.filter_timed lasting]
      rfl
    refine ⟨rfl, after, ?_⟩
    rcases outcome with ⟨⟨reply, accepted⟩, bridge⟩ | ⟨⟨cause, failed, conn⟩, bridge⟩
    · rw [accepted] at result
      exact Or.inl ⟨⟨(), result⟩, by rw [bridge, merged]⟩
    · rw [failed] at result
      refine Or.inr ⟨⟨cause, result, conn⟩, bridge.imp ?_ ?_⟩
      · exact fun same => by rw [same]
      · exact fun made => by rw [made, merged]
  cases c with
  | setTransition seconds => exact ⟨rfl, good, Or.inl ⟨⟨(), rfl⟩, rfl⟩⟩
  | setRgb rgb => exact puts
  | setHsb hsb => exact puts
  | turnOn => exact puts
  | turnOff => exact puts
  | _ => exact absurd setting nofun

end

/-! ### Outlets -/

namespace Outlet

variable {σ : Type}

/-- To open a handle is to read the light. -/
theorem connect_eq (n : Network σ) (o : Outlet σ) :
    answer n .connect o = match (fetch.ending n o.connector.handle o.network) with
      | ⟨.ok _, handle, network⟩ =>
        (.ok o.handles.length, { o with network, handles := o.handles ++ [handle] })
      | ⟨.error cause, _, network⟩ => (.error cause, { o with network }) := by
  have conversation : o.connector.connect.run n o.network =
      match ((fetch.run.run o.connector.handle).run n o.network) with
      | ((.ok _, handle), network) => (.ok handle, network)
      | ((.error cause, _), network) => (.error cause, network) := by
    show ((fetch.run.run o.connector.handle).bind _).run n o.network = _
    rw [Dialogue.run_bind]
    generalize (fetch.run.run o.connector.handle).run n o.network = r
    obtain ⟨⟨_ | _, _⟩, _⟩ := r <;> rfl
  show o.connect n = _
  rw [connect, conversation, ending]
  generalize (fetch.run.run o.connector.handle).run n o.network = r
  obtain ⟨⟨_ | _, _⟩, _⟩ := r <;> rfl

theorem perform_eq (n : Network σ) (index : Nat) (c : Call) (o : Outlet σ) :
    answer n (.call index c) o =
      let e := (Hue.perform c).ending n (o.handles.getD index o.connector.handle) o.network
      (e.result, { o with network := e.world, handles := o.handles.set index e.state }) :=
  rfl

theorem result_call {n : Network σ} {o : Outlet σ} (index : Nat) (c : Call) :
    (answer n (.call index c) o).1 =
      ((Hue.perform c).ending n (o.handles.getD index o.connector.handle) o.network).result :=
  rfl

theorem network_call {n : Network σ} {o : Outlet σ} (index : Nat) (c : Call) :
    (answer n (.call index c) o).2.network =
      ((Hue.perform c).ending n (o.handles.getD index o.connector.handle) o.network).world :=
  rfl

/-- Nothing is to come but that requests or their replies are lost. -/
structure Fit (sure : Prop) (o : Outlet Line) : Prop where
  going : o.control.stopping = false
  unleft : o.control.pending = none
  line : o.network.Good sure
  reaches : Reaches o.connector.handle.address
  handles : ∀ h ∈ o.handles, h.address = o.connector.handle.address

/-- The fields of the state of the light. -/
def field (o : Outlet Line) : String → Option Json.Value := o.network.bridge.field

variable {sure : Prop} {o : Outlet Line}

theorem Fit.address (h : o.Fit sure) (index : Nat) :
    (o.handles.getD index o.connector.handle).address = o.connector.handle.address := by
  rw [List.getD_eq_getElem?_getD]
  cases found : o.handles[index]? with
  | none => rfl
  | some handle => exact h.handles handle (List.mem_of_getElem? found)

/-- A handle is opened, or the reading for it is lost. -/
theorem Fit.connect (h : o.Fit sure) :
    ((answer Line.answer .connect o).2.Fit sure ∧ (answer Line.answer .connect o).2.field = o.field) ∧
    ((∃ handle, (answer Line.answer .connect o).1 = .ok handle) ∨
      ∃ cause, (answer Line.answer .connect o).1 = .error cause ∧ cause.isConnectivity = true ∧ ¬sure) := by
  have read := leads_reading h.line h.reaches
  rw [leads_iff] at read
  rw [connect_eq]
  generalize fetch.ending Line.answer o.connector.handle o.network = e at read ⊢
  obtain ⟨result, handle, network⟩ := e
  obtain ⟨rfl, ⟨line, bridge⟩, ⟨state, rfl⟩ | ⟨cause, rfl, conn⟩⟩ := read
  · refine ⟨⟨⟨h.going, h.unleft, line, h.reaches, ?_⟩, congrArg Bridge.field bridge⟩, Or.inl ⟨_, rfl⟩⟩
    intro handle hh
    rcases List.mem_append.mp hh with hh | hh
    · exact h.handles handle hh
    · exact List.mem_singleton.mp hh ▸ rfl
  · exact ⟨⟨⟨h.going, h.unleft, line, h.reaches, h.handles⟩, congrArg Bridge.field bridge⟩,
      Or.inr ⟨cause, rfl, conn⟩⟩

/-- A handle that was used keeps its address. -/
theorem Fit.used (h : o.Fit sure) (index : Nat) {handle : Handle} {network : Line}
    (address : handle.address = (o.handles.getD index o.connector.handle).address)
    (line : network.Good sure) :
    Fit sure { o with network, handles := o.handles.set index handle } where
  going := h.going
  unleft := h.unleft
  line := line
  reaches := h.reaches
  handles handle' hh := by
    rcases List.mem_or_eq_of_mem_set hh with hh | rfl
    · exact h.handles handle' hh
    · exact address.trans (h.address index)

/-- What a call sets is set, or the call is lost, and then it may be set or not. -/
theorem Fit.setting (h : o.Fit sure) (index : Nat) {c : Call} (setting : c.isSetting = true) :
    (answer Line.answer (.call index c) o).2.Fit sure ∧
      ((∃ reply, (answer Line.answer (.call index c) o).1 = .ok reply) ∧
          (answer Line.answer (.call index c) o).2.field = afterCall o.field c ∨
        (∃ cause, (answer Line.answer (.call index c) o).1 = .error cause ∧
            cause.isConnectivity = true ∧ ¬sure) ∧
          ((answer Line.answer (.call index c) o).2.field = o.field ∨
            (answer Line.answer (.call index c) o).2.field = afterCall o.field c)) := by
  have reaches : Reaches (o.handles.getD index o.connector.handle).address :=
    (h.address index).symm ▸ h.reaches
  obtain ⟨address, line, outcome⟩ := leads_setting h.line reaches setting
  rw [perform_eq]
  exact ⟨h.used index address line, outcome⟩

/-- A light is read, or the reading is lost. -/
theorem Fit.reading (h : o.Fit sure) (index : Nat) {c : Call} (reading : c = .getRgb ∨ c = .saveSnapshot) :
    ((answer Line.answer (.call index c) o).2.Fit sure ∧
        (answer Line.answer (.call index c) o).2.field = o.field) ∧
      ((∃ reply, (answer Line.answer (.call index c) o).1 = .ok reply) ∨
        ∃ cause, (answer Line.answer (.call index c) o).1 = .error cause ∧ ¬sure) := by
  have reaches : Reaches (o.handles.getD index o.connector.handle).address :=
    (h.address index).symm ▸ h.reaches
  have reads : Leads Line.answer (Hue.perform c) (o.handles.getD index o.connector.handle) o.network
      fun _ r h' l' => h' = o.handles.getD index o.connector.handle ∧
        (l'.Good sure ∧ l'.bridge = o.network.bridge) ∧
        ((∃ reply, r = .ok reply) ∨ ∃ cause, r = .error cause ∧ ¬sure) := by
    have fetches : ∀ {α : Type} (f : State → Operation α), (∀ state h l, ∃ a,
        Leads Line.answer (f state) h l fun T r h' l' => T = [] ∧ r = .ok a ∧ h' = h ∧ l' = l) →
      Leads Line.answer (fetch >>= f) (o.handles.getD index o.connector.handle) o.network
        fun _ r h' l' => h' = o.handles.getD index o.connector.handle ∧
          (l'.Good sure ∧ l'.bridge = o.network.bridge) ∧
          ((∃ reply, r = .ok reply) ∨ ∃ cause, r = .error cause ∧ ¬sure) := by
      intro α f quiet
      have reads := leads_reading h.line reaches
      rw [leads_bind]
      refine reads.mono fun T r h' l' read => ?_
      obtain ⟨rfl, line, ⟨state, rfl⟩ | ⟨cause, rfl, -, unsure⟩⟩ := read
      · obtain ⟨a, told⟩ := quiet state (o.handles.getD index o.connector.handle) l'
        refine told.mono fun T' r' h' l' end_ => ?_
        obtain ⟨-, rfl, rfl, rfl⟩ := end_
        exact ⟨rfl, line, Or.inl ⟨a, rfl⟩⟩
      · exact ⟨rfl, line, Or.inr ⟨cause, rfl, unsure⟩⟩
    rcases reading with rfl | rfl
    · exact fetches _ fun state h l => ⟨_, rfl, rfl, rfl, rfl⟩
    · exact fetches _ fun state h l => ⟨_, rfl, rfl, rfl, rfl⟩
  obtain ⟨same, ⟨line, bridge⟩, outcome⟩ := reads
  rw [perform_eq]
  exact ⟨⟨h.used index (congrArg Handle.address same) line, congrArg Bridge.field bridge⟩, outcome⟩

theorem Fit.quiet (h : o.Fit sure) {q : Question} (hconnect : q ≠ .connect)
    (hcall : ∀ handle c, q ≠ .call handle c) :
    (answer Line.answer q o).2.Fit sure ∧ (answer Line.answer q o).2.field = o.field := by
  cases q with
  | connect => exact absurd rfl hconnect
  | call handle c => exact absurd rfl (hcall handle c)
  | nextScript => exact ⟨⟨h.going, rfl, h.line, h.reaches, h.handles⟩, rfl⟩
  | _ => exact ⟨⟨h.going, h.unleft, h.line, h.reaches, h.handles⟩, rfl⟩

/-- Playback through a line on which requests and replies are lost. -/
theorem fair : Fair (answer Line.answer) afterCall field (Fit sure) sure where
  stopping _ h := h.going
  nextScript _ h := h.unleft
  quiet _ _ h := h.quiet
  connect _ h := by
    obtain ⟨⟨fit, same⟩, outcome⟩ := h.connect
    refine ⟨fit, same, fun cause failed => ?_⟩
    rcases outcome with ⟨handle, opened⟩ | ⟨cause', lost, conn⟩
    · exact absurd (opened.symm.trans failed) nofun
    · exact Except.error.inj (lost.symm.trans failed) ▸ conn
  call _ index _ h setting := h.setting index setting
  again := fun field c _ => afterCall_again field c

end Outlet

/-! ### Power -/

/-- The state of playback agrees with whether the light is on. -/
def Agrees (field : String → Option Json.Value) (state : PlaybackState) : Prop :=
  field "on" = some (.bool (state.power = .on))

/-- After a plain command the state agrees with the light if it did before. -/
theorem agrees_next {field : String → Option Json.Value} {s : PlaybackState} {c : Command}
    (agrees : Agrees field s) (plain : c.isPlain = true) :
    Agrees ((c.calls s).foldl afterCall field) (c.next s) := by
  have off : Agrees (s.offCalls.foldl afterCall field) ⟨.off, s.timeAdjust⟩ := by
    obtain ⟨power, time⟩ := s
    cases power with
    | on => rfl
    | off => exact agrees
  have on : ∀ {call : Call}, (∀ field, afterCall field call "on" = field "on") →
      Agrees ((s.onCalls ++ [call]).foldl afterCall field) ⟨.on, s.timeAdjust⟩ := by
    intro call colours
    rw [List.foldl_append]
    refine (colours _).trans ?_
    obtain ⟨power, time⟩ := s
    cases power with
    | on => exact agrees
    | off => rfl
  have colour : ∀ hsb : Hsb, ∀ field, afterCall field (.setHsb hsb) "on" = field "on" :=
    fun hsb field => rfl
  rw [Command.calls, Command.next]
  cases does : c.instruction with
  | fade => exact agrees
  | timeAdjust => exact agrees
  | unknown code => exact agrees
  | hsb =>
    dsimp only
    split
    · exact off
    · exact on (colour _)
  | rgb =>
    dsimp only
    split
    · exact off
    · exact on (colour _)
  | hsbJitter => rw [Command.isPlain, does] at plain; cases plain
  | rgbJitter => rw [Command.isPlain, does] at plain; cases plain

/-- The state agrees with the light whenever a command is done with, and in the end. -/
def AgreesAlong (field : String → Option Json.Value) (es : List Event) (last : PlaybackState) : Prop :=
  (∀ m ∈ milestonesOf afterCall field es, Agrees m.sight m.state) ∧
    Agrees (seen afterCall field es) last

theorem AgreesAlong.append {field : String → Option Json.Value} {es es' : List Event}
    {s s' : PlaybackState} (h : AgreesAlong field es s)
    (h' : Agrees (seen afterCall field es) s → AgreesAlong (seen afterCall field es) es' s') :
    AgreesAlong field (es ++ es') s' := by
  obtain ⟨milestones, last⟩ := h' h.2
  refine ⟨fun m hm => ?_, ?_⟩
  · rw [milestonesOf_append] at hm
    exact (List.mem_append.mp hm).elim (h.1 m) (milestones m)
  · rw [seen_append]
    exact last

section

variable {field : String → Option Json.Value} {s : PlaybackState} {cmds : List Command}

theorem agreesAlong_events {c : Command} (agrees : Agrees field s) (plain : c.isPlain = true) :
    AgreesAlong field (c.events s) (c.next s) := by
  have next : AgreesAlong field ((c.calls s).map .told) (c.next s) := by
    refine ⟨fun m hm => ?_, ?_⟩
    · rw [milestonesOf_told] at hm
      exact absurd hm List.not_mem_nil
    · have told := seen_told afterCall field [] (c.calls s)
      rw [List.nil_append] at told
      rw [told]
      exact agrees_next agrees plain
  refine next.append fun agrees => ⟨?_, agrees⟩
  exact List.forall_mem_singleton.mpr agrees

theorem agreesAlong_commands (agrees : Agrees field s) (plain : ∀ c ∈ cmds, c.isPlain = true) :
    AgreesAlong field (commandEvents s cmds) (stateAfter s cmds) := by
  induction cmds generalizing field s with
  | nil => exact ⟨List.forall_mem_nil _, agrees⟩
  | cons c cmds ih =>
    obtain ⟨hc, hcmds⟩ := List.forall_mem_cons.mp plain
    exact (agreesAlong_events agrees hc).append fun agrees => ih agrees hcmds

theorem agreesAlong_rendition (agrees : Agrees field s) (plain : ∀ c ∈ cmds, c.isPlain = true)
    (fuel : Nat) : ∃ last, AgreesAlong field (rendition cmds fuel s) last := by
  induction fuel generalizing field s with
  | zero => exact ⟨s, List.forall_mem_nil _, agrees⟩
  | succ fuel ih =>
    rw [rendition, passEvents]
    by_cases empty : cmds = []
    · subst empty
      exact ih agrees
    · rw [if_neg (by rwa [List.isEmpty_iff])]
      by_cases fueled : fuel = 0
      · subst fueled
        exact ⟨s, List.forall_mem_nil _, agrees⟩
      · rw [if_neg fueled]
        have commands : AgreesAlong field (commandEvents s.fresh cmds) (stateAfter s.fresh cmds) :=
          agreesAlong_commands agrees plain
        obtain ⟨last, rest⟩ := ih commands.2
        exact ⟨last, commands.append fun _ => rest⟩

/-- The state agrees with the light from the start-up on. -/
theorem agreesAlong_run (field : String → Option Json.Value) (time : Int64)
    (plain : ∀ c ∈ cmds, c.isPlain = true) (fuel : Nat) :
    ∃ last, AgreesAlong field
      (Player.openingCalls.map .told ++ rendition cmds fuel ⟨.on, time⟩) last := by
  have opening : AgreesAlong field (Player.openingCalls.map .told) ⟨.on, time⟩ :=
    ⟨List.forall_mem_nil _, rfl⟩
  obtain ⟨last, rest⟩ := agreesAlong_rendition opening.2 plain fuel
  exact ⟨last, opening.append fun _ => rest⟩

end

/-! ### Playback through a line -/

namespace Outlet

variable {sure : Prop} {o : Outlet Line} {p : Player}

open Player

/-- A reading whose loss halts playback. -/
theorem leads_reading_orHalt {α : Type} (fit : o.Fit sure) {index : Nat} {c : Call}
    (reading : c = .getRgb ∨ c = .saveSnapshot) {f : c.Reply → Playing α}
    {post : List (Turn Player Question Question.Answer (Outlet Line)) → Except Halt α → Player →
      Outlet Line → Prop}
    (read : ∀ reply o', o'.Fit sure → o'.field = o.field → Leads (answer Line.answer) (f reply) p o'
      fun T => post (⟨p, .call index c, .ok reply, o⟩ :: T))
    (lost : ¬sure → ∀ cause o',
      post [⟨p, .call index c, .error cause, o⟩] (.error (.failed cause)) p o') :
    Leads (answer Line.answer) (Player.ask (.call index c) >>= fun r => orHalt r >>= f) p o post := by
  rw [leads_ask_bind]
  obtain ⟨⟨fit', same⟩, outcome⟩ := fit.reading index reading
  generalize answer Line.answer (.call index c) o = a at fit' same outcome ⊢
  obtain ⟨result, o'⟩ := a
  obtain ⟨reply, rfl⟩ | ⟨cause, rfl, unsure⟩ := outcome
  · exact read reply o' fit' same
  · exact lost unsure cause o'

/-- A start-up opens the light and turns it on, or something of it is lost. -/
theorem leads_startUp (fit : o.Fit sure) :
    Leads (answer Line.answer) startUp p o fun T r p' o' =>
      ((∃ snapshot, r = .ok snapshot) ∧ events T = openingCalls.map .told ∧ o'.Fit sure ∧
        o'.field = afterCall o.field .turnOn ∧ p'.state = { p.state with power := .on } ∧
        p'.script = p.script) ∨
      ((∃ halt, r = .error halt) ∧ events T <+: openingCalls.map .told ∧ ¬sure) := by
  rw [startUp, leads_ask_bind]
  obtain ⟨⟨fit₁, same₁⟩, outcome⟩ := fit.connect
  generalize answer Line.answer .connect o = a at fit₁ same₁ outcome ⊢
  obtain ⟨result, o₁⟩ := a
  obtain ⟨handle, rfl⟩ | ⟨cause, rfl, -, unsure⟩ := outcome
  case inr => exact Or.inr ⟨⟨_, rfl⟩, List.nil_prefix, unsure⟩
  dsimp only at fit₁ same₁ ⊢
  refine leads_reading_orHalt (c := .getRgb) fit₁ (Or.inl rfl) (fun rgb o₂ fit₂ same₂ => ?_) fun unsure cause o₂ =>
    Or.inr ⟨⟨_, rfl⟩, List.nil_prefix, unsure⟩
  rw [leads_bind, leads_get]
  show Leads _ (Player.ask (.report _) >>= _) _ _ _
  rw [leads_ask_bind]
  obtain ⟨fit₃, same₃⟩ := fit₂.quiet (q := .report (.initialColor p.bulb rgb)) (by simp) (by simp)
  refine leads_reading_orHalt (c := .saveSnapshot) fit₃ (Or.inr rfl) (fun snapshot o₄ fit₄ same₄ => ?_)
    fun unsure cause o₄ =>
      Or.inr ⟨⟨_, rfl⟩, ⟨[.told .saveSnapshot, .told .turnOn], rfl⟩, unsure⟩
  rw [leads_ask_bind]
  obtain ⟨fit₅, outcome⟩ := fit₄.setting handle (c := .turnOn) rfl
  generalize answer Line.answer (.call handle .turnOn) o₄ = a at fit₅ outcome ⊢
  obtain ⟨result, o₅⟩ := a
  obtain ⟨⟨reply, rfl⟩, set⟩ | ⟨⟨cause, rfl, -, unsure⟩, -⟩ := outcome
  · refine Or.inl ⟨⟨_, rfl⟩, rfl, fit₅, ?_, rfl, rfl⟩
    exact set.trans (congrArg (afterCall · .turnOn) (same₄.trans (same₃.trans (same₂.trans same₁))))
  · exact Or.inr ⟨⟨_, rfl⟩, ⟨[.told .turnOn], rfl⟩, unsure⟩

/-- While the bulb is only told something, no command is done with. -/
theorem unpaced_of_told {W : Type} {T : List (Turn Player Question Question.Answer W)}
    {cs : List Call} (told : events T <+: cs.map .told) :
    ∀ t ∈ T, ∀ length, t.question ≠ .pause .pacing length := by
  rintro ⟨p, q, r, w⟩ ht length rfl
  have paced : Event.paced p.state length ∈ events T :=
    List.mem_filterMap.mpr ⟨_, ht, rfl⟩
  obtain ⟨c, -, hc⟩ := List.mem_map.mp (told.subset paced)
  exact absurd hc nofun

theorem split_after {α : Type} {S P A B : List α} {a : α} (split : S ++ P = A ++ a :: B)
    (late : a ∉ S) : ∃ A', A = S ++ A' ∧ P = A' ++ a :: B := by
  induction S generalizing A with
  | nil => exact ⟨A, rfl, split⟩
  | cons s S ih =>
    obtain ⟨other, late⟩ := not_or.mp (mt List.mem_cons.mpr late)
    rcases A with _ | ⟨b, A⟩
    · exact absurd (List.cons.inj split).1.symm other
    · obtain ⟨rfl, tail⟩ := List.cons.inj split
      obtain ⟨A', rfl, rest⟩ := ih tail late
      exact ⟨A', rfl, rest⟩

/-- What happens in a playback of plain commands, and what there is to see whenever a command is done
with. -/
theorem run_fit (fit : o.Fit sure) (plain : ∀ c ∈ p.script.commands, c.isPlain = true)
    (fuel : Nat) :
    let whole := openingCalls.map .told ++
      rendition p.script.commands fuel { p.state with power := .on }
    let T := (run fuel).turns (answer Line.answer) p o
    events T <+: whole ∧ (sure → events T = whole) ∧
      milestones field T = milestonesOf afterCall o.field (events T) := by
  intro whole T
  have started := leads_startUp (p := p) fit
  rw [leads_iff] at started
  generalize begun : startUp.ending (answer Line.answer) p o = e at started
  obtain ⟨result, p₁, o₁⟩ := e
  dsimp only at started
  obtain ⟨⟨snapshot, rfl⟩, opening, fit₁, field₁, state, script⟩ | ⟨⟨halt, rfl⟩, opening, unsure⟩ :=
    started
  · -- the start-up has sent its calls, and the passes go on from what it leaves
    obtain ⟨unfinished, before, all, seen⟩ := fair.leads_play (script ▸ plain) fit₁ fuel
    have turns : T = _ := run_unfinished begun unfinished
    have happened : events T = openingCalls.map .told ++
        events ((play fuel).turns (answer Line.answer) p₁ o₁) := by
      rw [turns, events_append, opening]
    rw [state, script] at before all
    refine ⟨?_, fun certain => ?_, milestones_eq _ _ fun A t B split paces => ?_⟩
    · rw [happened]
      exact (List.prefix_append_right_inj _).mpr before
    · rw [happened, all certain]
    · rw [turns] at split
      have told : events (startUp.turns (answer Line.answer) p o) <+: openingCalls.map .told := by
        exact opening ▸ List.prefix_rfl
      have late : t ∉ startUp.turns (answer Line.answer) p o := fun ht =>
        unpaced_of_told told t ht _ paces.choose_spec
      obtain ⟨A', rfl, rest⟩ := split_after split late
      have first : ∀ es, Lightshow.seen afterCall o.field (openingCalls.map .told ++ es) =
          Lightshow.seen afterCall o₁.field es := by
        intro es
        rw [seen_append, field₁]
        rfl
      rw [events_append, opening, first]
      exact seen A' t B rest paces
  · -- the start-up has sent some of its calls, and nothing was waited for
    have turns : T = _ := (run_failed begun).1
    rw [turns]
    refine ⟨opening.trans (List.prefix_append _ _), fun certain => absurd certain unsure, ?_⟩
    refine milestones_eq _ _ fun A t B split ⟨length, paces⟩ => ?_
    have asked : t ∈ startUp.turns (answer Line.answer) p o :=
      split ▸ List.mem_append_right A List.mem_cons_self
    exact absurd paces (unpaced_of_told opening t asked length)

/-- It does not matter which requests and which replies are lost: whenever a command is done with,
the bridge has in every field of the state what it has then without any loss, and the state of
playback agrees with the light.  Losses only keep playback from going as far. -/
theorem lost_replies_leave_no_trace {connector : Connector}
    (reaches : Reaches connector.handle.address) {bridge : Bridge}
    {fields : List (String × Json.Value)} (sound : bridge.Sound fields)
    (mishaps : Nat → Option Mishap) {script : Script}
    (plain : ∀ c ∈ script.commands, c.isPlain = true) (bulb : String) (backoff : Backoff)
    (fuel : Nat) :
    let p := Player.new bulb script backoff
    let turns mishaps := (run fuel).turns (answer Line.answer) p
      (.new connector ⟨bridge, mishaps⟩)
    events (turns mishaps) <+: events (turns fun _ => none) ∧
    milestones field (turns mishaps) <+: milestones field (turns fun _ => none) ∧
    ∀ m ∈ milestones field (turns mishaps), Agrees m.sight m.state := by
  intro p turns
  have fit : Fit False (.new connector ⟨bridge, mishaps⟩) :=
    ⟨rfl, rfl, ⟨⟨fields, sound⟩, False.elim⟩, reaches, List.forall_mem_nil _⟩
  have clear : Fit True (.new connector ⟨bridge, fun _ => none⟩) :=
    ⟨rfl, rfl, ⟨⟨fields, sound⟩, fun _ _ => rfl⟩, reaches, List.forall_mem_nil _⟩
  obtain ⟨before, -, lossy⟩ := run_fit (p := p) fit plain fuel
  obtain ⟨-, all, whole⟩ := run_fit (p := p) clear plain fuel
  have happened : events (turns mishaps) <+: events (turns fun _ => none) := by
    show events _ <+: events _
    rw [all trivial]
    exact before
  refine ⟨happened, ?_, fun m hm => ?_⟩
  · show milestones field _ <+: milestones field _
    rw [lossy, whole]
    exact prefix_milestonesOf _ _ happened
  · rw [show milestones field (turns mishaps) = _ from lossy] at hm
    obtain ⟨last, agrees⟩ := agreesAlong_run bridge.field _ plain fuel
    exact agrees.1 m ((prefix_milestonesOf _ _ before).subset hm)

/-- The reply to a change is lost, and then the reading of a new handle. -/
theorem lost_replies_leave_no_trace_turning_off :
    let connector := Connector.new "10.0.0.2" "me" "1"
    let bridge : Bridge := ⟨.object [("state", .object [onField false])]⟩
    let mishaps : Nat → Option Mishap := fun
      | 4 => some ⟨true, .noReply, rfl⟩
      | 5 => some ⟨false, .reply 503 "", rfl⟩
      | _ => none
    let script : Script := ⟨[⟨0, .hsb, [0, 0, 0]⟩, ⟨0, .hsb, [10, 20, 30]⟩]⟩
    let turns mishaps := (run 4).turns (answer Line.answer) (.new "1" script .usual)
      (.new connector ⟨bridge, mishaps⟩)
    (((turns mishaps).take 14).filterMap Turn.failure?).length = 2 ∧
    (milestones field ((turns mishaps).take 22)).length = 1 ∧
    milestones field (turns mishaps) <+: milestones field (turns fun _ => none) ∧
    ∀ m ∈ milestones field (turns mishaps), Agrees m.sight m.state := by
  intro connector bridge mishaps script turns
  have reaches : Reaches connector.handle.address := ⟨by decide +kernel, by decide +kernel⟩
  have isState : IsState [onField false] := .of_settable (List.pairwise_singleton _ _) rfl
    (List.forall_mem_singleton.mpr (settable_on false))
  have sound : bridge.Sound [("state", .object [onField false])] := .of_isState isState
  have plain : ∀ c ∈ script.commands, c.isPlain = true := by decide
  obtain ⟨-, milestones, agree⟩ :=
    lost_replies_leave_no_trace reaches sound mishaps plain "1" .usual 4
  exact ⟨by decide +kernel, by decide +kernel, milestones, agree⟩

end Outlet

end Lightshow.Hue
