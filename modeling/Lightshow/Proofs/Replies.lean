/-
What becomes of the requests of an operation.

An operation of a handle has its requests, which it sends in order.  Each is carried out or fails,
and that can be told from its outcome alone: `Fulfilled` says when a request is carried out, and
`Outcome.Lost` and `Outcome.Refuses` which failures are an outage and which are an error that the
bridge reports.  The first request that fails ends the operation, and it decides how.

* `Outcome.accepted_eq_ok_iff`, `Outcome.lost_iff`, `Outcome.refuses_iff` -- the outcome of a request;
* `Ran` -- an operation and its requests, put together from its parts;
* `Connector.settled` -- every operation of a light, however the requests come out.
-/
import Lightshow.Proofs.Addresses
import Lightshow.Proofs.Lights

namespace Lightshow.Hue

open Json (Value)
open Web (Url)

/-! ### Outcomes -/

namespace Outcome

/-- The reply is a success with a body. -/
def Carries (o : Outcome) (v : Value) : Prop :=
  ∃ status body, o = .reply status body ∧ 200 ≤ status ∧ status < 300 ∧
    Value.ofText body.toList = .ok v

/-- There was no reply, or the bridge was in trouble. -/
def Lost (o : Outcome) : Prop :=
  o = .noReply ∨ ∃ status body, o = .reply status body ∧ 500 ≤ status ∧ status < 600

end Outcome

/-- No entry of a list is an error. -/
def Faultless (v : Value) : Prop :=
  ∀ entries, v = .list entries → ∀ entry ∈ entries, entry.field? "error" = none

/-- The text of a field; other values are passed over. -/
def Says (v : Value) (name s : String) : Prop :=
  v.field? name = some (.text s) ∨ (∀ t, v.field? name ≠ some (.text t)) ∧ s = ""

/-- A reply with an entry that is an error, the first of which says where it belongs and what it
is. -/
def Outcome.Refuses (o : Outcome) (address description : String) : Prop :=
  ∃ before entry after error, o.Carries (.list (before ++ entry :: after)) ∧
    (∀ e ∈ before, e.field? "error" = none) ∧ entry.field? "error" = some error ∧
    Says error "address" address ∧ Says error "description" description

theorem says_iff {v : Value} {name s : String} :
    ((v.field? name).bind Value.text?).getD "" = s ↔ Says v name s := by
  constructor
  · rintro rfl
    cases found : (v.field? name).bind Value.text? with
    | none =>
      refine Or.inr ⟨fun t h => ?_, rfl⟩
      rw [h] at found
      cases found
    | some t =>
      obtain ⟨w, field, text⟩ := Option.bind_eq_some_iff.mp found
      cases w with
      | text u =>
        obtain rfl := Option.some.inj text
        exact Or.inl field
      | _ => cases text
  · rintro (h | ⟨none, rfl⟩)
    · rw [h]
      rfl
    · cases field : v.field? name with
      | none => rfl
      | some w =>
        cases w with
        | text t => exact absurd field (none t)
        | _ => rfl

theorem firstError?_eq_none_iff {v : Value} : firstError? v = none ↔ Faultless v := by
  cases v with
  | list entries =>
    rw [firstError?, Value.items?, Option.getD_some, List.findSome?_eq_none_iff]
    simp only [Option.map_eq_none_iff]
    exact ⟨fun h _ same => Value.list.inj same ▸ h, fun h => h entries rfl⟩
  | _ =>
    refine ⟨fun _ entries same => ?_, fun _ => rfl⟩
    cases same

theorem firstError?_eq_some_iff {v : Value} {address description : String} :
    firstError? v = some (address, description) ↔
      ∃ before entry after error, v = .list (before ++ entry :: after) ∧
        (∀ e ∈ before, e.field? "error" = none) ∧ entry.field? "error" = some error ∧
        Says error "address" address ∧ Says error "description" description := by
  cases v with
  | list entries =>
    rw [firstError?, Value.items?, Option.getD_some, List.findSome?_eq_some_iff]
    simp only [Option.map_eq_none_iff, Option.map_eq_some_iff, Value.list.injEq]
    constructor
    · rintro ⟨before, entry, after, split, ⟨error, found, parts⟩, first⟩
      obtain ⟨address, description⟩ := Prod.mk.inj parts
      exact ⟨before, entry, after, error, split, first, found, says_iff.mp address,
        says_iff.mp description⟩
    · rintro ⟨before, entry, after, error, split, first, found, address, description⟩
      exact ⟨before, entry, after, split,
        ⟨error, found, Prod.ext (says_iff.mpr address) (says_iff.mpr description)⟩, first⟩
  | _ =>
    constructor
    · intro found
      cases found
    · rintro ⟨_, _, _, _, same, -⟩
      cases same

namespace Outcome

variable {o : Outcome} {url : Url} {v w : Value} {cause : BulbError}

theorem Carries.unique (h : o.Carries v) (h' : o.Carries w) : v = w := by
  obtain ⟨status, body, rfl, -, -, read⟩ := h
  obtain ⟨_, _, ⟨⟩, -, -, read'⟩ := h'
  exact Except.ok.inj (read.symm.trans read')

theorem Carries.not_lost (h : o.Carries v) : ¬o.Lost := by
  obtain ⟨status, body, rfl, -, few, -⟩ := h
  rintro (h | ⟨_, _, ⟨⟩, many, -⟩)
  · cases h
  · omega

theorem Carries.text (h : o.Carries v) : ∃ limit t, Value.Text limit t v := by
  obtain ⟨_, _, -, -, -, read⟩ := h
  obtain ⟨_, _, _, -, -, -, text⟩ := Value.ofText_eq_ok_iff.mp read
  exact ⟨_, _, text⟩

/-- What becomes of a reply with a success and a body. -/
theorem Carries.accepted (h : o.Carries v) : o.accepted url = match firstError? v with
    | some (address, description) => .error (.rejected address description)
    | none => .ok v := by
  obtain ⟨status, body, rfl, least, few, read⟩ := h
  have fine : Web.Status.isServerError status = false := by
    rw [Web.Status.isServerError, Bool.and_eq_false_iff]
    exact Or.inl (decide_eq_false (by omega))
  have success : Web.Status.isSuccess status = true := by
    rw [Web.Status.isSuccess, decide_eq_true least, decide_eq_true few]
    rfl
  rw [Outcome.accepted, fine, success, read]
  rfl

/-- Whatever else comes back is an outage or makes no sense. -/
theorem accepted_of_not_carries (url : Url) (h : ∀ v, ¬o.Carries v) :
    ∃ cause, o.accepted url = .error cause ∧ (cause.isConnectivity = true ↔ o.Lost) ∧
      ∀ address description, cause ≠ .rejected address description := by
  cases o with
  | noReply => exact ⟨_, rfl, ⟨fun _ => Or.inl rfl, fun _ => rfl⟩, fun _ _ same => by cases same⟩
  | reply status body =>
    have lost_iff : Lost (.reply status body) ↔ Web.Status.isServerError status = true := by
      rw [Web.Status.isServerError, Bool.and_eq_true, decide_eq_true_iff, decide_eq_true_iff]
      constructor
      · rintro (h | ⟨_, _, ⟨⟩, h⟩)
        · cases h
        · exact h
      · exact fun h => Or.inr ⟨status, body, rfl, h⟩
    rw [accepted, lost_iff]
    split
    case isTrue trouble =>
      exact ⟨_, rfl, ⟨fun _ => trouble, fun _ => rfl⟩, fun _ _ same => by cases same⟩
    case isFalse fine =>
      -- both remaining failures are protocol errors
      have senseless (m : Misunderstanding) :
          ((BulbError.protocol m).isConnectivity = true ↔ Web.Status.isServerError status = true) ∧
            ∀ address description, BulbError.protocol m ≠ .rejected address description :=
        ⟨⟨fun h => absurd h Bool.false_ne_true, fun h => absurd h fine⟩, fun _ _ same => by cases same⟩
      split
      case isTrue => exact ⟨_, rfl, senseless _⟩
      case isFalse success =>
        cases read : Value.ofText body.toList with
        | error fault => exact ⟨_, rfl, senseless _⟩
        | ok v =>
          rw [Bool.not_eq_true, Bool.not_eq_false', Web.Status.isSuccess, Bool.and_eq_true,
            decide_eq_true_iff, decide_eq_true_iff] at success
          exact absurd ⟨status, body, rfl, success.1, success.2, read⟩ (h v)

/-- A request is carried out by a reply without an error. -/
theorem accepted_eq_ok_iff : o.accepted url = .ok v ↔ o.Carries v ∧ Faultless v := by
  by_cases h : ∃ w, o.Carries w
  · obtain ⟨w, h⟩ := h
    rw [h.accepted]
    constructor
    · intro ok
      split at ok
      · cases ok
      case h_2 none =>
        obtain rfl := Except.ok.inj ok
        exact ⟨h, firstError?_eq_none_iff.mp none⟩
    · rintro ⟨h', none⟩
      obtain rfl := h.unique h'
      rw [firstError?_eq_none_iff.mpr none]
  · obtain ⟨cause, failed, -⟩ := accepted_of_not_carries url (not_exists.mp h)
    rw [failed]
    exact ⟨nofun, fun h' => absurd ⟨v, h'.1⟩ h⟩

theorem lost_iff (failed : o.accepted url = .error cause) : cause.isConnectivity = true ↔ o.Lost := by
  by_cases h : ∃ v, o.Carries v
  · obtain ⟨v, h⟩ := h
    rw [h.accepted] at failed
    split at failed
    · obtain rfl := Except.error.inj failed
      exact ⟨nofun, fun lost => absurd lost h.not_lost⟩
    · cases failed
  · obtain ⟨cause', failed', lost, -⟩ := accepted_of_not_carries url (not_exists.mp h)
    exact Except.error.inj (failed'.symm.trans failed) ▸ lost

theorem refuses_iff (failed : o.accepted url = .error cause) {address description : String} :
    cause = .rejected address description ↔ o.Refuses address description := by
  by_cases h : ∃ v, o.Carries v
  · obtain ⟨v, h⟩ := h
    rw [h.accepted] at failed
    have same : o.Refuses address description ↔ firstError? v = some (address, description) := by
      rw [firstError?_eq_some_iff]
      constructor
      · rintro ⟨before, entry, after, error, h', rest⟩
        exact ⟨before, entry, after, error, h.unique h', rest⟩
      · rintro ⟨before, entry, after, error, rfl, rest⟩
        exact ⟨before, entry, after, error, h, rest⟩
    rw [same]
    split at failed
    case h_1 address' description' found =>
      rw [found, ← Except.error.inj failed, BulbError.rejected.injEq, Option.some.injEq,
        Prod.mk.injEq]
    case h_2 => cases failed
  · obtain ⟨cause', failed', -, other⟩ := accepted_of_not_carries url (not_exists.mp h)
    obtain rfl := Except.error.inj (failed'.symm.trans failed)
    refine ⟨fun same => absurd same (other address description), ?_⟩
    rintro ⟨_, _, _, _, carries, -⟩
    exact absurd ⟨_, carries⟩ h

end Outcome

/-! ### Operations -/

/-- A request is carried out: there is a success without an error, and a reading tells of a light. -/
def Fulfilled (q : Request) (o : Outcome) : Prop :=
  ∃ v, o.Carries v ∧ Faultless v ∧ (q.body = none → ∃ state, TellsLight v state)

/-- How a request fails, by what comes back: it is lost or refused, or the reply makes no sense. -/
structure Fails (q : Request) (o : Outcome) (cause : BulbError) : Prop where
  unfulfilled : ¬Fulfilled q o
  lost : cause.isConnectivity = true ↔ o.Lost
  refuses : ∀ address description,
    cause = .rejected address description ↔ o.Refuses address description

/-- A request that is not accepted fails as its outcome says. -/
theorem Fails.of_accepted {q : Request} {url : Url} {o : Outcome} {cause : BulbError}
    (failed : o.accepted url = .error cause) : Fails q o cause where
  unfulfilled := by
    rintro ⟨v, carries, faultless, -⟩
    cases failed.symm.trans (Outcome.accepted_eq_ok_iff.mpr ⟨carries, faultless⟩)
  lost := Outcome.lost_iff failed
  refuses _ _ := Outcome.refuses_iff failed

/-- A reading that is accepted but tells of no light is neither lost nor refused. -/
theorem Fails.of_reply {q : Request} {o : Outcome} {v : Value} {issue : Json.Issue}
    (reads : q.body = none) (carries : o.Carries v) (faultless : Faultless v)
    (untold : State.ofReply v = .error issue) (m : Misunderstanding) :
    Fails q o (.protocol m) where
  unfulfilled := by
    rintro ⟨w, carries', -, tells⟩
    obtain ⟨state, tells⟩ := tells reads
    obtain rfl := carries.unique carries'
    obtain ⟨_, _, text⟩ := carries.text
    cases untold.symm.trans ((State.ofReply_eq_ok_iff text).mpr tells)
  lost := ⟨nofun, fun lost => absurd lost carries.not_lost⟩
  refuses _ _ := by
    refine ⟨nofun, ?_⟩
    rintro ⟨before, entry, after, error, carries', -, found, -⟩
    obtain rfl := carries.unique carries'
    cases (faultless _ rfl entry (by simp)).symm.trans found

/-- What a bridge is asked, and what comes back. -/
abbrev Exchange (σ : Type) := Turn Handle Request (fun _ => Outcome) σ

section

variable {σ α β : Type}

/-- An operation ran through its requests, or it broke off at the first that failed. -/
inductive Ran (plan : List Request) (T : List (Exchange σ)) : Except BulbError α → Prop
  | ok (a : α) : T.map Turn.question = plan → (∀ t ∈ T, Fulfilled t.question t.answer) →
      Ran plan T (.ok a)
  | error {before : List (Exchange σ)} {t : Exchange σ} {cause : BulbError} :
      T = before ++ [t] → T.map Turn.question <+: plan →
      (∀ u ∈ before, Fulfilled u.question u.answer) → Fails t.question t.answer cause →
      Ran plan T (.error cause)

variable {plan plan' : List Request} {T T' : List (Exchange σ)}

theorem ran_nothing (a : α) : Ran [] ([] : List (Exchange σ)) (.ok a) :=
  .ok a rfl (List.forall_mem_nil _)

/-- After an operation that ran through comes the next. -/
theorem Ran.append {a : α} {r : Except BulbError β} (h : Ran plan T (.ok a)) (h' : Ran plan' T' r) :
    Ran (plan ++ plan') (T ++ T') r := by
  cases h with
  | ok _ asked all =>
    cases h' with
    | ok b asked' all' =>
      refine .ok b (by rw [List.map_append, asked, asked']) fun t ht => ?_
      exact (List.mem_append.mp ht).elim (all t) (all' t)
    | @error before t cause split asked' all' fails =>
      have split' : T ++ T' = (T ++ before) ++ [t] := by rw [split, List.append_assoc]
      refine .error split' ?_ ?_ fails
      · rw [List.map_append, asked]
        exact (List.prefix_append_right_inj plan).mpr asked'
      · exact fun u hu => (List.mem_append.mp hu).elim (all u) (all' u)

/-- After an operation that broke off there is no next. -/
theorem Ran.broken {cause : BulbError} (h : Ran plan T (.error cause : Except BulbError α)) :
    Ran (plan ++ plan') T (.error cause : Except BulbError β) := by
  cases h with
  | error split asked all fails =>
    exact .error split (asked.trans (List.prefix_append plan plan')) all fails

/-- What is made of the result does not matter. -/
theorem Ran.map {r : Except BulbError α} (f : α → β) (h : Ran plan T r) : Ran plan T (r.map f) := by
  cases h with
  | ok a asked all => exact .ok (f a) asked all
  | error split asked all fails => exact .error split asked all fails

variable {network : Network σ} {h : Handle} {s : σ}

/-- One operation after another runs through the requests of both. -/
theorem Ran.bind {x : Operation α} {f : α → Operation β}
    (first : Talk.Leads network x h s fun T r h' s' => Ran plan T r ∧ ∀ a, r = .ok a →
      Talk.Leads network (f a) h' s' fun T r _ _ => Ran plan' T r) :
    Talk.Leads network (x >>= f) h s fun T r _ _ => Ran (plan ++ plan') T r := by
  rw [Talk.leads_bind]
  refine first.mono fun T r h' s' h => ?_
  obtain ⟨ran, next⟩ := h
  cases r with
  | ok a => exact (next a rfl).mono fun T' r' _ _ ran' => ran.append ran'
  | error cause => exact ran.broken

/-- A change is one request. -/
theorem ran_put {url : Url} (parsed : Url.parse? (h.address ++ "/state") = some url)
    (sendable : url.isSendable = true) (fields : List (String × Value)) :
    Talk.Leads network (put fields) h s fun T r h' _ =>
      Ran [⟨url, some (.object (h.timed fields))⟩] T r ∧ h' = h := by
  refine (leads_put parsed sendable fields).mono fun T r h' s' sent => ?_
  obtain ⟨rfl, rfl, rfl, rfl⟩ := sent
  refine ⟨Ran.map _ ?_, rfl⟩
  cases accepted : (network ⟨url, some (.object (h'.timed fields))⟩ s).1.accepted url with
  | ok v =>
    obtain ⟨carries, faultless⟩ := Outcome.accepted_eq_ok_iff.mp accepted
    exact .ok v rfl (List.forall_mem_singleton.mpr ⟨v, carries, faultless, nofun⟩)
  | error cause =>
    exact .error (List.nil_append _).symm (List.prefix_refl _) (List.forall_mem_nil _)
      (.of_accepted accepted)

/-- A reading is one request, and its reply has to tell of a light. -/
theorem ran_fetch {url : Url} (parsed : Url.parse? h.address = some url)
    (sendable : url.isSendable = true) :
    Talk.Leads network fetch h s fun T r h' _ => Ran [⟨url, none⟩] T r ∧ h' = h := by
  refine (leads_fetch parsed sendable).mono fun T r h' s' sent => ?_
  obtain ⟨rfl, rfl, rfl, rfl⟩ := sent
  refine ⟨?_, rfl⟩
  cases accepted : (network ⟨url, none⟩ s).1.accepted url with
  | ok v =>
    obtain ⟨carries, faultless⟩ := Outcome.accepted_eq_ok_iff.mp accepted
    obtain ⟨_, _, text⟩ := carries.text
    dsimp only
    cases told : State.ofReply v with
    | ok state =>
      have tells := (State.ofReply_eq_ok_iff text).mp told
      exact .ok state rfl
        (List.forall_mem_singleton.mpr ⟨v, carries, faultless, fun _ => ⟨state, tells⟩⟩)
    | error issue =>
      exact .error (List.nil_append _).symm (List.prefix_refl _) (List.forall_mem_nil _)
        (.of_reply rfl carries faultless told _)
  | error cause =>
    exact .error (List.nil_append _).symm (List.prefix_refl _) (List.forall_mem_nil _)
      (.of_accepted accepted)

/-! ### Handles and connects -/

/-- The requests of a call, in order, when none of them fails.  A snapshot is put back in two: a light
takes a colour only while it is on. -/
def requestsOf (light state : Url) (h : Handle) : Call → List Request
  | .getRgb | .getHue | .getSaturation | .getBrightness | .saveSnapshot => [⟨light, none⟩]
  | .getTransition | .setTransition _ => []
  | .restoreSnapshot s =>
    let h := { h with transition := s.transition.map deciseconds }
    let (name, v) := onField true
    ⟨state, some (.object (h.timed (Json.putField name v (colorFields s.hsb))))⟩ ::
      if s.on then [] else [⟨state, some (.object (h.timed [onField false]))⟩]
  | c => [⟨state, some (.object (h.timed (changes c)))⟩]

/-- A call runs through its requests. -/
theorem ran_perform {light state : Url} (parsed : Url.parse? h.address = some light)
    (parsed' : Url.parse? (h.address ++ "/state") = some state)
    (sendable : light.isSendable = true) (sendable' : state.isSendable = true) (c : Call) :
    Talk.Leads network (perform c) h s fun T r _ _ => Ran (requestsOf light state h c) T r := by
  have reads {β : Type} (f : State → Operation β)
      (quiet : ∀ st h s, Talk.Leads network (f st) h s fun T r _ _ => Ran [] T r) :
      Talk.Leads network (fetch >>= f) h s fun T r _ _ => Ran [⟨light, none⟩] T r :=
    Ran.bind ((ran_fetch parsed sendable).mono fun _ _ _ _ ran => ⟨ran.1, fun st _ => quiet st _ _⟩)
  have puts (fields : List (String × Value)) : Talk.Leads network (put fields) h s
      fun T r _ _ => Ran [⟨state, some (.object (h.timed fields))⟩] T r :=
    (ran_put parsed' sendable' fields).mono fun _ _ _ _ ran => ran.1
  cases c with
  | getRgb => exact reads _ fun st h s => ran_nothing _
  | getHue => exact reads _ fun st h s => ran_nothing _
  | getSaturation => exact reads _ fun st h s => ran_nothing _
  | getBrightness => exact reads _ fun st h s => ran_nothing _
  | saveSnapshot => exact reads _ fun st h s => ran_nothing _
  | getTransition => exact ran_nothing _
  | setTransition seconds => exact ran_nothing _
  | setRgb rgb => exact puts _
  | setHue hue => exact puts _
  | setSaturation level => exact puts _
  | setBrightness level => exact puts _
  | setHsb hsb => exact puts _
  | turnOn => exact puts _
  | turnOff => exact puts _
  | restoreSnapshot snapshot =>
    let h' : Handle := { h with transition := snapshot.transition.map deciseconds }
    have changes (fields : List (String × Value)) (s : σ) : Talk.Leads network (put fields) h' s
        fun T r h'' _ => Ran [⟨state, some (.object (h'.timed fields))⟩] T r ∧ h'' = h' :=
      ran_put (h := h') parsed' sendable' fields
    refine Talk.leads_bind.mpr (Talk.leads_modify.mpr ?_)
    refine Ran.bind ((changes _ s).mono fun _ _ h'' s' ran => ⟨ran.1, fun _ _ => ?_⟩)
    obtain ⟨-, rfl⟩ := ran
    cases snapshot.on with
    | true => exact ran_nothing _
    | false => exact (changes _ s').mono fun _ _ _ _ ran => ran.1

/-- To open a handle is to read the light. -/
theorem ran_connect {c : Connector} {light : Url} (parsed : Url.parse? c.handle.address = some light)
    (sendable : light.isSendable = true) :
    Ran [⟨light, none⟩] (c.connect.turns network s) (c.connect.run network s).1 := by
  have ran : Talk.Leads network fetch c.handle s fun T r _ _ => Ran [⟨light, none⟩] T r :=
    (ran_fetch parsed sendable).mono fun _ _ _ _ ran => ran.1
  rw [Talk.leads_iff, Talk.turns, Talk.ending] at ran
  show Ran _ (((fetch.run.run c.handle).bind _).turns network s)
    (((fetch.run.run c.handle).bind _).run network s).1
  rw [Dialogue.turns_bind, Dialogue.run_bind]
  generalize (fetch.run.run c.handle).run network s = e at ran ⊢
  obtain ⟨⟨cause | state, h⟩, s'⟩ := e
  · show Ran _ (_ ++ []) _
    rw [List.append_nil]
    exact Ran.map (fun _ => h) ran
  · show Ran _ (_ ++ []) _
    rw [List.append_nil]
    exact Ran.map (fun _ => h) ran

/-- How an operation with some requests comes out.  They are sent in order, up to the first that
fails, and that one decides. -/
structure Settled (plan : List Request) (T : List (Exchange σ)) (r : Except BulbError α) : Prop where
  sent : T.map Turn.question <+: plan
  whole : (∀ t ∈ T, Fulfilled t.question t.answer) → T.map Turn.question = plan
  stops : ∀ before t after, T = before ++ t :: after → ¬Fulfilled t.question t.answer → after = []
  ok_iff : (∃ a, r = .ok a) ↔ ∀ t ∈ T, Fulfilled t.question t.answer
  connectivity_iff : (∃ cause, r = .error cause ∧ cause.isConnectivity = true) ↔
    ∃ t ∈ T, ¬Fulfilled t.question t.answer ∧ t.answer.Lost
  rejected_iff : ∀ address description, r = .error (.rejected address description) ↔
    ∃ t ∈ T, ¬Fulfilled t.question t.answer ∧ t.answer.Refuses address description
  protocol_iff : (∃ cause, r = .error (.protocol cause)) ↔
    ∃ t ∈ T, ¬Fulfilled t.question t.answer ∧ ¬t.answer.Lost ∧
      ∀ address description, ¬t.answer.Refuses address description

theorem Ran.settles {r : Except BulbError α} (h : Ran plan T r) : Settled plan T r := by
  cases h with
  | ok a asked all =>
    have none : ∀ {P : Exchange σ → Prop}, ¬∃ t ∈ T, ¬Fulfilled t.question t.answer ∧ P t :=
      fun ⟨t, ht, fails, _⟩ => fails (all t ht)
    refine ⟨asked ▸ List.prefix_refl _, fun _ => asked, ?_, ⟨fun _ => all, fun _ => ⟨a, rfl⟩⟩,
      ⟨nofun, fun h => absurd h none⟩, fun _ _ => ⟨nofun, fun h => absurd h none⟩,
      ⟨nofun, fun h => absurd h none⟩⟩
    rintro before t after rfl fails
    exact absurd (all t (by simp)) fails
  | @error before t cause split asked all fails =>
    subst split
    -- the last request is the only one that fails
    have only {P : Exchange σ → Prop} : (∃ u ∈ before ++ [t],
        ¬Fulfilled u.question u.answer ∧ P u) ↔ P t := by
      constructor
      · rintro ⟨u, hu, failed, h⟩
        rcases List.mem_append.mp hu with hu | hu
        · exact absurd (all u hu) failed
        · exact List.mem_singleton.mp hu ▸ h
      · exact fun h => ⟨t, by simp, fails.unfulfilled, h⟩
    have some : ¬∀ u ∈ before ++ [t], Fulfilled u.question u.answer :=
      fun h => fails.unfulfilled (h t (by simp))
    refine ⟨asked, fun h => absurd h some, ?_, ⟨nofun, fun h => absurd h some⟩, ?_, ?_, ?_⟩
    · intro before' u after same failed
      rcases List.eq_nil_or_concat after with rfl | ⟨after, v, rfl⟩
      · rfl
      · rw [List.concat_eq_append, ← List.cons_append, ← List.append_assoc] at same
        obtain ⟨rfl, -⟩ := List.append_inj' same rfl
        exact absurd (all u (by simp)) failed
    · rw [only, ← fails.lost]
      exact ⟨fun ⟨_, same, conn⟩ => Except.error.inj same ▸ conn, fun conn => ⟨_, rfl, conn⟩⟩
    · intro address description
      rw [only, ← fails.refuses, Except.error.injEq]
    · rw [only, ← fails.lost]
      simp only [← fails.refuses, Except.error.injEq]
      cases cause with
      | connectivity link => exact ⟨nofun, fun h => absurd rfl h.1⟩
      | rejected address description => exact ⟨nofun, fun h => absurd rfl (h.2 address description)⟩
      | protocol cause => exact ⟨fun _ => ⟨nofun, fun _ _ => nofun⟩, fun _ => ⟨cause, rfl⟩⟩

/-- **Replies are told apart exactly.**  Whatever comes back for its requests, a connect and every
call of a light that can be asked for stop at the first request that fails; that one decides between
an outage, an error that the bridge reports, and a reply that makes no sense. -/
theorem Connector.settled (c : Connector)
    (sendable : (Url.parse? c.handle.address).any Url.isSendable = true) (network : Network σ)
    (s : σ) : ∃ light state : Url, Url.parse? c.handle.address = some light ∧
      Url.parse? (c.handle.address ++ "/state") = some state ∧
      Settled [⟨light, none⟩] (c.connect.turns network s) (c.connect.run network s).1 ∧
      ∀ h : Handle, h.address = c.handle.address → ∀ call, Settled (requestsOf light state h call)
        ((perform call).turns network h s) ((perform call).ending network h s).result := by
  obtain ⟨light, parsed, sendable'⟩ := (Option.any_eq_true _ _).mp sendable
  obtain ⟨state, parsedState, sendableState⟩ :=
    (Option.any_eq_true _ _).mp (c.reaches sendable).state
  refine ⟨light, state, parsed, parsedState, (ran_connect parsed sendable').settles,
    fun h same call => ?_⟩
  rw [← same] at parsed parsedState
  exact Ran.settles (ran_perform parsed parsedState sendable' sendableState call)

/-- A bridge falls silent between the two changes that put back a light that was off. -/
theorem Connector.settled_silenced :
    let c := Connector.new "10.0.0.2" "me" "1"
    let network : Network Nat := fun _ n => (if n = 0 then .reply 200 "[]" else .noReply, n + 1)
    let restore : Call := .restoreSnapshot ⟨false, ⟨1, 2, 3⟩, none⟩
    let turns := (perform restore).turns network c.handle 0
    (Url.parse? c.handle.address).any Url.isSendable = true ∧ turns.length = 2 ∧
      ∃ t ∈ turns, ¬Fulfilled t.question t.answer ∧ t.answer.Lost := by
  intro c network restore turns
  have sendable : (Url.parse? c.handle.address).any Url.isSendable = true := by decide +kernel
  obtain ⟨light, state, -, -, -, calls⟩ := c.settled sendable network 0
  have broken : (match ((perform restore).ending network c.handle 0).result with
    | .error cause => cause.isConnectivity
    | .ok _ => false) = true := by decide +kernel
  refine ⟨sendable, by decide +kernel, ?_⟩
  have settled := calls c.handle rfl restore
  generalize ((perform restore).ending network c.handle 0).result = result at settled broken
  cases result with
  | error cause => exact settled.connectivity_iff.mp ⟨cause, rfl, broken⟩
  | ok _ => cases broken

end

end Lightshow.Hue
