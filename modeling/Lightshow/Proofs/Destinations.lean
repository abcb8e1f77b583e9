/-
Where the requests for a light go.

The identifier of a light is put behind the path to the lights as it is, and the whole is read as an
address.  So it is one step of the path only if it reads as one: it may not begin a query or a fragment,
end with blanks, or lead away with dots and slashes.  A change asks for more behind the identifier, and
a blank or a dot at its end reads in another way there.

* `Stays` -- an identifier that reads as one step behind the way to the lights;
* `asked_iff` -- it does exactly if a reading and a change ask for that step and for what is behind it;
* `Request.GoesTo`, `Outlet.Directed` -- all that an outlet asks for belongs to the address of its light;
* `Connector.requests_stay_iff` -- the requests of all conversations with a light.
-/
import Lightshow.Proofs.Paths
import Lightshow.Proofs.Stepwise

namespace Lightshow

namespace Hue

open Web Url Talk Json

/-! ### Ways to a light -/

/-- The steps that lead to the lights of a user. -/
def wayTo (user : List Char) : List (List Char) := ["api".toList, user, "lights".toList]

/-- The identifier of a light is one step behind the way to the lights. -/
structure Stays (username light : String) : Prop where
  question : '?' ∉ light.toList
  hash : '#' ∉ light.toList
  unblanked : trimmed (counted light.toList) = counted light.toList
  returns : ∃ front last, Host.split '/' (slashed (counted light.toList)) = front ++ [last] ∧
    isDot last = false ∧ isDoubleDot last = false ∧
    wander [] (wayTo username.toList ++ front) = (wayTo username.toList).reverse

/-- The path to the lights of a user, behind its first slash. -/
def pathTo (user : List Char) : List Char := "api/".toList ++ (user ++ "/lights/".toList)

section

variable {user : List Char} (safe : ∀ c ∈ user, isUnreserved c = true)
include safe

theorem not_mem_pathTo {c : Char} (special : c ∈ ['?', '#', '\\', '%']) : c ∉ pathTo user := by
  intro h
  have fixed : ∀ d ∈ "api/".toList ++ "/lights/".toList, d ∉ ['?', '#', '\\', '%'] :=
    List.all_iff_forall_prop.mp (by decide)
  rcases List.mem_append.mp h with h | h
  · exact fixed c (List.mem_append_left _ h) special
  rcases List.mem_append.mp h with h | h
  · have among : ∀ d ∈ ['?', '#', '\\', '%'], d ∈ ['/', '\\', '?', '#', '%'] :=
      List.all_iff_forall_prop.mp (by decide)
    exact (unreserved (safe c h)).2.1 (among c special)
  · exact fixed c (List.mem_append_right _ h) special

theorem seen_of_mem_pathTo : ∀ c ∈ pathTo user, 0x20 < c.toNat := by
  have fixed : ∀ c ∈ "api/".toList ++ "/lights/".toList, 0x20 < c.toNat :=
    List.all_iff_forall_prop.mp (by decide)
  intro c hc
  rcases List.mem_append.mp hc with hc | hc
  · exact fixed c (List.mem_append_left _ hc)
  rcases List.mem_append.mp hc with hc | hc
  · exact (unreserved (safe c hc)).1
  · exact fixed c (List.mem_append_right _ hc)

/-- The pieces of a path behind the way to the lights. -/
theorem split_pathTo (rest : List Char) :
    Host.split '/' (slashed (pathTo user ++ rest)) = wayTo user ++ Host.split '/' (slashed rest) := by
  have plain : '/' ∉ user := fun h => (unreserved (safe _ h)).2.1 List.mem_cons_self
  rw [slashed_append, slashed_of_plain (not_mem_pathTo safe (by decide))]
  show Host.split '/' ("api".toList ++ '/' :: (user ++ "/lights/".toList ++ slashed rest)) = _
  rw [Host.split_append_separator, List.append_assoc]
  show _ ++ Host.split '/' (user ++ '/' :: ("lights".toList ++ '/' :: slashed rest)) = _
  rw [Host.split_append_separator, Host.split_append_separator, Host.split_of_not_mem plain,
    Host.split_of_not_mem (by decide), Host.split_of_not_mem (by decide)]
  rfl

/-- What is asked for behind the way to the lights. -/
theorem toList_asked_lights {rest : List Char} (question : '?' ∉ rest) (hash : '#' ∉ rest) :
    (asked ('/' :: (pathTo user ++ rest))).toList =
      joined ((walk [] (wayTo user ++ Host.split '/' (slashed rest))).map
        (Percent.encode Percent.inPath)) := by
  have outside {c : Char} (special : c ∈ ['?', '#', '\\', '%']) (h : c ∉ rest) :
      c ∉ pathTo user ++ rest := fun hc =>
    (List.mem_append.mp hc).elim (not_mem_pathTo safe special) h
  rw [toList_asked (outside (by decide) hash) (outside (by decide) question), split_pathTo safe]

theorem encode_wayTo : (wayTo user).map (Percent.encode Percent.inPath) = wayTo user := by
  have same : Percent.encode Percent.inPath user = user :=
    Percent.encode_of_plain fun c hc => (unreserved (safe c hc)).2.2
  have api : Percent.encode Percent.inPath "api".toList = "api".toList := by decide
  have lights : Percent.encode Percent.inPath "lights".toList = "lights".toList := by decide
  rw [wayTo, List.map_cons, List.map_cons, List.map_cons, same, api, lights]
  rfl

/-- The steps on the way mean nothing but themselves. -/
theorem plain_wayTo {s : List Char} (h : s ∈ wayTo user) {c : Char} (special : c ∈ ['/', '?', '%']) :
    c ∉ s := by
  have fixed : ∀ d ∈ "api".toList ++ "lights".toList, d ∉ ['/', '?', '%'] :=
    List.all_iff_forall_prop.mp (by decide)
  have among : ∀ d ∈ ['/', '?', '%'], d ∈ ['/', '\\', '?', '#', '%'] :=
    List.all_iff_forall_prop.mp (by decide)
  intro hc
  simp only [wayTo, List.mem_cons, List.not_mem_nil, or_false] at h
  rcases h with rfl | rfl | rfl
  · exact fixed c (List.mem_append_left _ hc) special
  · exact (unreserved (safe c hc)).2.1 (among c special)
  · exact fixed c (List.mem_append_right _ hc) special

end

theorem encoded_plain {s : List Char} (single : '/' ∉ s) : '/' ∉ Percent.encode Percent.inPath s ∧
    '?' ∉ Percent.encode Percent.inPath s := by
  constructor
  · intro h
    rcases Percent.mem_encode h with h | h | h
    · exact absurd h (by decide)
    · exact absurd h (by decide)
    · exact single h.1
  · intro h
    rcases Percent.mem_encode h with h | h | h
    · exact absurd h (by decide)
    · exact absurd h (by decide)
    · exact absurd h.2 (by decide)

/-- In front of the state, blanks at the end of an identifier count. -/
theorem trimmed_state (cs : List Char) :
    trimmed (counted (cs ++ "/state".toList)) = counted cs ++ "/state".toList := by
  have whole : counted "/state".toList = "/state".toList := by decide
  have parts : counted (cs ++ "/state".toList) = counted cs ++ counted "/state".toList :=
    List.filter_append ..
  rw [parts, whole, trimmed_append (by decide) (List.all_iff_forall_prop.mp (by decide))]

/-- A change goes one step further than a reading. -/
theorem split_change (cs : List Char) : Host.split '/' (slashed (cs ++ "/state".toList)) =
    Host.split '/' (slashed cs) ++ ["state".toList] := by
  rw [slashed_append]
  show Host.split '/' (slashed cs ++ '/' :: "state".toList) = _
  rw [Host.split_append_separator, Host.split_of_not_mem (a := "state".toList) (by decide)]

theorem walk_change (way front : List (List Char)) (last : List Char) :
    walk [] (way ++ (front ++ [last] ++ ["state".toList])) =
      (wander (wander [] (way ++ front)) [last]).reverse ++ ["state".toList] := by
  rw [← List.append_assoc, ← List.append_assoc, walk_concat, wander_concat]
  exact List.reverse_cons

theorem eq_of_encoded_way {way W : List (List Char)} (plain : ∀ s ∈ way, '%' ∉ s)
    (h : W.map (Percent.encode Percent.inPath) = way) : W = way := by
  subst h
  refine (List.map_id W).symm.trans (List.map_congr_left fun s hs => ?_)
  exact (Percent.eq_of_encode (plain _ (List.mem_map_of_mem hs))).symm

/-- What is asked for tells the steps that were walked. -/
theorem walk_of_asked {user rest : List Char} (safe : ∀ c ∈ user, isUnreserved c = true)
    (question : '?' ∉ rest) (hash : '#' ∉ rest) {ss : List (List Char)} (plain : ∀ s ∈ ss, '/' ∉ s)
    (same : (asked ('/' :: (pathTo user ++ rest))).toList = joined ss) :
    (walk [] (wayTo user ++ Host.split '/' (slashed rest))).map (Percent.encode Percent.inPath) = ss := by
  rw [toList_asked_lights safe question hash] at same
  refine joined_inj (fun s hs => ?_) plain same
  have single : ∀ s ∈ walk [] (wayTo user ++ Host.split '/' (slashed rest)), '/' ∉ s := by
    refine forall_walk List.not_mem_nil (by simp [wayTo]) fun s hs => ?_
    rcases List.mem_append.mp hs with hs | hs
    · exact plain_wayTo safe hs (by decide)
    · exact Host.not_mem_of_mem_split hs
  obtain ⟨t, ht, rfl⟩ := List.mem_map.mp hs
  exact (encoded_plain (single t ht)).1

/-- Behind a hash, a change asks for no more than a reading. -/
theorem hash_not_mem_of_asked {user cs : List Char} {ss : List (List Char)}
    (reading : (asked ('/' :: (pathTo user ++ trimmed cs))).toList = joined ss)
    (change : (asked ('/' :: (pathTo user ++ (cs ++ "/state".toList)))).toList =
      joined (ss ++ ["state".toList])) :
    '#' ∉ cs := by
  intro h
  obtain ⟨blanks, whole, -⟩ := exists_trimmed cs
  have here : '#' ∈ '/' :: (pathTo user ++ trimmed cs) :=
    List.mem_cons_of_mem _ (List.mem_append_right _ ((mem_trimmed (by decide)).mpr h))
  have split : '/' :: (pathTo user ++ (cs ++ "/state".toList)) =
      '/' :: (pathTo user ++ trimmed cs) ++ (blanks ++ "/state".toList) := by
    rw [List.cons_append, List.append_assoc, ← List.append_assoc (trimmed _), ← whole]
  rw [split, asked_append here, reading] at change
  have := congrArg List.length change
  simp [joined] at this

/-- A query would show in what a reading asks for. -/
theorem question_not_mem_of_asked {user cs : List Char} {ss : List (List Char)}
    (safe : ∀ c ∈ user, isUnreserved c = true) (hash : '#' ∉ cs) (plain : ∀ s ∈ ss, '?' ∉ s)
    (reading : (asked ('/' :: (pathTo user ++ trimmed cs))).toList = joined ss) : '?' ∉ cs := by
  intro h
  have here : '?' ∈ '/' :: (pathTo user ++ trimmed cs) :=
    List.mem_cons_of_mem _ (List.mem_append_right _ ((mem_trimmed (by decide)).mpr h))
  have hashless : '#' ∉ '/' :: (pathTo user ++ trimmed cs) :=
    List.not_mem_cons_of_ne_of_not_mem (by decide) (List.not_mem_append
      (not_mem_pathTo safe (by decide)) (mt (mem_trimmed (by decide)).mp hash))
  have mark := question_mem_asked hashless here
  rw [reading] at mark
  obtain ⟨s, hs, mark⟩ := List.mem_flatMap.mp mark
  exact plain s hs ((List.mem_cons.mp mark).resolve_left (by decide))

/-- If a reading and a change ask for one step behind the way, the identifier is that step. -/
theorem stays_of_asked {username light : String} (safe : ∀ c ∈ username.toList, isUnreserved c = true)
    {step : List Char} (single : '/' ∉ step) (queryless : '?' ∉ step)
    (reading : (asked ('/' :: (pathTo username.toList ++ trimmed (counted light.toList)))).toList =
      joined (wayTo username.toList ++ [step]))
    (change : (asked ('/' :: (pathTo username.toList ++
      (counted light.toList ++ "/state".toList)))).toList =
        joined (wayTo username.toList ++ [step, "state".toList])) :
    Stays username light := by
  have plain {c : Char} (special : c ∈ ['/', '?', '%']) (h : c ∉ step) :
      ∀ s ∈ wayTo username.toList ++ [step], c ∉ s := by
    intro s hs
    rcases List.mem_append.mp hs with hs | hs
    · exact plain_wayTo safe hs special
    · exact List.mem_singleton.mp hs ▸ h
  have way := plain (c := '/') (by decide) single
  have way' : ∀ s ∈ wayTo username.toList ++ [step] ++ ["state".toList], '/' ∉ s := fun s hs =>
    (List.mem_append.mp hs).elim (way s) fun hs => List.mem_singleton.mp hs ▸ by decide
  rw [List.append_cons] at change
  have hash := hash_not_mem_of_asked reading change
  have question := question_not_mem_of_asked safe hash (plain (by decide) queryless) reading
  obtain ⟨blanks, whole, edges⟩ := exists_trimmed (counted light.toList)
  obtain ⟨front, last, pieces, -, extended⟩ :=
    Host.exists_split '/' (slashed (trimmed (counted light.toList)))
  have blank {c : Char} (h : isEdge c = false) : c ∉ blanks := fun hc => by
    rw [edges c hc] at h
    cases h
  -- the same pieces, but for blanks at the end of the last one
  have pieces' : Host.split '/' (slashed (counted light.toList)) = front ++ [last ++ blanks] := by
    rw [whole, slashed_append, slashed_of_plain (blank (by decide))]
    exact extended blanks (blank (by decide))
  have alone := walk_of_asked safe (mt (mem_trimmed (by decide)).mp question)
    (mt (mem_trimmed (by decide)).mp hash) way reading
  have passed := walk_of_asked safe (List.not_mem_append question (by decide))
    (List.not_mem_append hash (by decide)) way' change
  rw [pieces, ← List.append_assoc, walk_concat] at alone
  rw [split_change, pieces', walk_change, List.map_append] at passed
  have passed := List.append_inj_left' passed rfl
  have back {ss : List (List Char)} (h : ss.reverse.map (Percent.encode Percent.inPath) =
      wayTo username.toList ++ [step]) : ss.map (Percent.encode Percent.inPath) =
        step :: (wayTo username.toList).reverse := by
    rw [← List.reverse_inj, ← List.map_reverse, h, List.reverse_cons, List.reverse_reverse]
  obtain ⟨rfl, goesOn, goesOn', returns⟩ :=
    arrivals_agree (by simp [wayTo]) edges (back alone) (back passed)
  rw [List.append_nil] at whole pieces'
  refine ⟨fun h => question ((mem_counted (by decide)).mpr h),
    fun h => hash ((mem_counted (by decide)).mpr h), whole.symm, front, last, pieces', goesOn, goesOn',
    eq_of_encoded_way (fun s hs => plain_wayTo safe (List.mem_reverse.mp hs) (by decide)) returns⟩

/-- What is asked for by a reading of a light, and by a change of its state. -/
theorem asked_iff {username : String} (safe : ∀ c ∈ username.toList, isUnreserved c = true)
    (light : String) :
    (∃ step, '/' ∉ step ∧ '?' ∉ step ∧
      (asked ('/' :: (pathTo username.toList ++ trimmed (counted light.toList)))).toList =
        joined (wayTo username.toList ++ [step]) ∧
      (asked ('/' :: (pathTo username.toList ++ (counted light.toList ++ "/state".toList)))).toList =
        joined (wayTo username.toList ++ [step, "state".toList])) ↔
      Stays username light := by
  have counts {c : Char} (h : isCounted c = true) : c ∈ counted light.toList ↔ c ∈ light.toList :=
    mem_counted h
  constructor
  · rintro ⟨step, single, queryless, reading, change⟩
    exact stays_of_asked safe single queryless reading change
  · intro stays
    obtain ⟨front, last, pieces, goesOn, goesOn', returns⟩ := stays.returns
    have hash : '#' ∉ counted light.toList := fun h => stays.hash ((counts (by decide)).mp h)
    have question : '?' ∉ counted light.toList := fun h => stays.question ((counts (by decide)).mp h)
    have single : '/' ∉ last :=
      Host.not_mem_of_mem_split (pieces ▸ List.mem_append_right _ List.mem_cons_self)
    have arrives (walked : List (List Char)) : arrive walked last = last :: walked := by
      rw [arrive, if_neg (by simp [goesOn']), if_neg (by simp [goesOn])]
    have passes (walked : List (List Char)) : wander walked [last] = last :: walked :=
      wander_of_plain (List.forall_mem_singleton.mpr ⟨goesOn', goesOn⟩)
    have spelled : (last :: (wayTo username.toList).reverse).reverse.map (Percent.encode Percent.inPath) =
        wayTo username.toList ++ [Percent.encode Percent.inPath last] := by
      rw [List.reverse_cons, List.reverse_reverse, List.map_append, encode_wayTo safe]
      rfl
    obtain ⟨single', queryless⟩ := encoded_plain single
    refine ⟨Percent.encode Percent.inPath last, single', queryless, ?_, ?_⟩
    · rw [stays.unblanked, toList_asked_lights safe question hash, pieces, ← List.append_assoc,
        walk_concat, returns, arrives, spelled]
    · rw [toList_asked_lights safe (List.not_mem_append question (by decide))
        (List.not_mem_append hash (by decide)), split_change, pieces, walk_change, returns, passes,
        List.map_append, spelled, List.append_assoc]
      rfl

/-- Visible characters without a meaning stay, as long as they are not dots. -/
theorem stays_of_plain {username light : String}
    (user : isDot username.toList = false ∧ isDoubleDot username.toList = false)
    (plain : ∀ c ∈ light.toList, 0x20 < c.toNat ∧ endsAuthority c = false)
    (goesOn : isDot light.toList = false) (goesOn' : isDoubleDot light.toList = false) :
    Stays username light := by
  have ends {c : Char} (mark : endsAuthority c = true) : c ∉ light.toList := fun h => by
    rw [(plain c h).2] at mark
    cases mark
  have whole : counted light.toList = light.toList := by
    have blanks : ∀ c ∈ ['\t', '\n', '\r'], c.toNat ≤ 0x20 :=
      List.all_iff_forall_prop.mp (by decide)
    refine List.filter_eq_self.mpr fun c hc => ?_
    have seen : c ∉ ['\t', '\n', '\r'] := fun h => Nat.not_lt.mpr (blanks c h) (plain c hc).1
    simpa [isCounted, and_assoc] using seen
  have solid : ∀ c ∈ light.toList, isEdge c = false := fun c hc =>
    decide_eq_false (Nat.not_le.mpr (plain c hc).1)
  have back : wander [] (wayTo username.toList) = (wayTo username.toList).reverse := by
    have fixed : ∀ s ∈ ["api".toList, "lights".toList], isDoubleDot s = false ∧ isDot s = false := by
      decide
    have goes : ∀ s ∈ wayTo username.toList, isDoubleDot s = false ∧ isDot s = false := by
      refine List.forall_mem_cons.mpr ⟨fixed _ List.mem_cons_self, List.forall_mem_cons.mpr
        ⟨user.symm, List.forall_mem_singleton.mpr (fixed _ (by decide))⟩⟩
    exact (wander_of_plain goes).trans (List.append_nil _)
  refine ⟨ends (by decide), ends (by decide), ?_, [], light.toList, ?_, goesOn, goesOn', ?_⟩
  · rw [whole]
    rcases List.eq_nil_or_concat light.toList with none | ⟨cs, c, some⟩
    · rw [none]
      rfl
    · rw [some, List.concat_eq_append] at solid ⊢
      exact trimmed_append (List.cons_ne_nil c [])
        fun d hd => solid d (List.mem_append_right _ hd)
  · rw [whole, slashed_of_plain (ends (by decide)), Host.split_of_not_mem (ends (by decide))]
    rfl
  · rwa [List.append_nil]

/-! ### Requests of a light -/

/-- What is asked for behind the address of a light: a reading goes to that, a change to its state. -/
def Request.more (r : Request) : String := if r.body.isSome then "/state" else ""

/-- The request goes where it belongs. -/
def Request.GoesTo (address : String) (r : Request) : Prop :=
  Url.parse? (address ++ r.more) = some r.url

section

variable {σ : Type} {n : Network σ} {address : String}

theorem noting_asked (r : Request) (s : σ × List Request) : (n.noting r s).2.2 = s.2 ++ [r] := rfl

/-- Where nothing can be sent to, nothing is read. -/
theorem leads_fetch_refused {h : Handle}
    (refused : (Url.parse? h.address).any Url.isSendable ≠ true) (s : σ) :
    Leads n fetch h s fun _ r _ _ => ∃ cause, r = .error cause := by
  rw [fetch, leads_bind, leads_get]
  show Leads n (send h.address none >>= _) h s _
  rw [leads_bind, send]
  cases parsed : Url.parse? h.address with
  | none => exact ⟨_, rfl⟩
  | some url =>
    rw [parsed] at refused
    dsimp only
    rw [if_pos (by simpa using refused)]
    exact ⟨_, rfl⟩

/-- A handle belongs to an address, and so does all that was asked. -/
def Kept (address : String) (_ : Unit) (h : Handle) (s : σ × List Request) : Prop :=
  h.address = address ∧ ∀ r ∈ s.2, r.GoesTo address

/-- Nothing is said about single requests. -/
def silent (σ : Type) : Chronicle Unit Handle Request (fun _ => Outcome) (σ × List Request) :=
  .each fun _ => True

/-- A request that goes where it belongs may be sent. -/
theorem leads_send_kept {place : String} {body : Option Value}
    (belongs : ∀ url, Url.parse? place = some url → (⟨url, body⟩ : Request).GoesTo address)
    {h : Handle} {s : σ × List Request} (kept : Kept address () h s) :
    Leads n.noting (send place body) h s fun _ _ h' s' => Kept address () h' s' := by
  rw [send]
  cases parsed : Url.parse? place with
  | none => exact kept
  | some url =>
    dsimp only
    by_cases refused : (!url.isSendable) = true
    · rw [if_pos refused]
      exact kept
    · rw [if_neg refused]
      show Leads n.noting (Talk.ask ⟨url, body⟩ >>= _) h s _
      rw [leads_ask_bind]
      have sent : Kept address () h (n.noting ⟨url, body⟩ s).2 := by
        refine ⟨kept.1, fun r hr => ?_⟩
        rcases List.mem_append.mp hr with hr | hr
        · exact kept.2 r hr
        · exact List.mem_singleton.mp hr ▸ belongs url parsed
      cases (n.noting ⟨url, body⟩ s).1.accepted url with
      | ok reply => exact sent
      | error cause => exact sent

theorem keeps_fetch_kept :
    Keeps n.noting (silent σ) (Kept address) (fun _ => Kept address) fetch := by
  refine keeps_always.mpr fun m h s kept => ?_
  have asks : Leads n.noting fetch h s fun _ _ h' s' => Kept address () h' s' := by
    rw [fetch, leads_bind, leads_get]
    show Leads n.noting (send h.address none >>= _) h s _
    rw [leads_bind]
    have belongs : ∀ url, Url.parse? h.address = some url → (⟨url, none⟩ : Request).GoesTo address := by
      intro url parsed
      rw [Request.GoesTo, ← kept.1]
      exact String.append_empty.symm ▸ parsed
    refine (leads_send_kept belongs kept).mono fun T r h' s' kept => ?_
    cases r with
    | error cause => exact kept
    | ok reply =>
      dsimp only
      cases State.ofReply reply with
      | ok state => exact kept
      | error issue => exact kept
  exact asks.mono fun T r h' s' kept => ⟨Chronicle.holds_each.mpr fun _ _ => trivial, kept⟩

theorem keeps_put_kept (fields : List (String × Value)) :
    Keeps n.noting (silent σ) (Kept address) (fun _ => Kept address) (put fields) := by
  refine keeps_always.mpr fun m h s kept => ?_
  have asks : Leads n.noting (put fields) h s fun _ _ h' s' => Kept address () h' s' := by
    rw [put, leads_bind, leads_get]
    show Leads n.noting (send (h.address ++ "/state") (some (.object (h.timed fields))) >>= _) h s _
    rw [leads_bind]
    refine (leads_send_kept (fun url parsed => ?_) kept).mono fun T r h' s' kept => ?_
    · rw [Request.GoesTo, ← kept.1]
      exact parsed
    · cases r with
      | error cause => exact kept
      | ok reply => exact kept
  exact asks.mono fun T r h' s' kept => ⟨Chronicle.holds_each.mpr fun _ _ => trivial, kept⟩

theorem takes_perform_kept (c : Call) :
    Takes n.noting (silent σ) (Kept address) (perform c) fun _ => Kept address :=
  takes_perform_of n.noting (fun _ _ _ kept => kept) keeps_fetch_kept
    fun fields _ => keeps_put_kept fields

end

namespace Outlet

variable {σ : Type} {n : Network σ} {address : String} {o : Outlet (σ × List Request)}

/-- All handles belong to an address, and all that was asked. -/
structure Directed (address : String) (o : Outlet (σ × List Request)) : Prop where
  connector : o.connector.handle.address = address
  handles : ∀ h ∈ o.handles, h.address = address
  asked : ∀ r ∈ o.network.2, r.GoesTo address

theorem Directed.address_handle (h : o.Directed address) (index : Nat) :
    (o.handle index).address = address := by
  rw [Outlet.handle, List.getD_eq_getElem?_getD]
  cases found : o.handles[index]? with
  | none => exact h.connector
  | some handle => exact h.handles handle (List.mem_of_getElem? found)

theorem Directed.answer (h : o.Directed address) (q : Question) :
    (answer n.noting q o).2.Directed address := by
  have begins : ∀ handle, handle.address = address →
      Kept address () handle o.network := fun handle known => ⟨known, h.asked⟩
  cases q with
  | connect =>
    have kept := (keeps_always.mp keeps_fetch_kept () _ _ (begins o.connector.handle h.connector) :
      Leads n.noting fetch _ _ _).2
    rw [connect_eq]
    generalize fetch.ending n.noting o.connector.handle o.network = e at kept ⊢
    obtain ⟨cause | state, handle, network⟩ := e
    · exact ⟨h.connector, h.handles, kept.2⟩
    · refine ⟨h.connector, fun handle' hh => ?_, kept.2⟩
      rcases List.mem_append.mp hh with hh | hh
      · exact h.handles handle' hh
      · exact List.mem_singleton.mp hh ▸ kept.1
  | call index c =>
    have kept := (takes_perform_kept c () _ _ (begins _ (h.address_handle index)) :
      Leads n.noting (Hue.perform c) _ _ _).2
    rw [perform_eq]
    refine ⟨h.connector, fun handle hh => ?_, kept.2⟩
    rcases List.mem_or_eq_of_mem_set hh with hh | rfl
    · exact h.handles handle hh
    · exact kept.1
  | _ => exact ⟨h.connector, h.handles, h.asked⟩

/-- Whether or not it works, to open a handle is to read the light. -/
theorem asked_connect {url : Url} (parsed : Url.parse? o.connector.handle.address = some url)
    (sendable : url.isSendable = true) :
    (Outlet.answer n.noting .connect o).2.network.2 = o.network.2 ++ [⟨url, none⟩] := by
  have world := (leads_fetch parsed sendable :
    Leads n.noting fetch o.connector.handle o.network _).2.2.2
  rw [connect_eq, ← noting_asked (n := n), ← world]
  generalize fetch.ending n.noting o.connector.handle o.network = e
  obtain ⟨_ | _, handle, network⟩ := e <;> rfl

/-- To turn a light on is to change its state. -/
theorem asked_turnOn {index : Nat} {url : Url}
    (parsed : Url.parse? ((o.handle index).address ++ "/state") = some url)
    (sendable : url.isSendable = true) : ∃ change,
    (Outlet.answer n.noting (.call index .turnOn) o).2.network.2 =
      o.network.2 ++ [⟨url, some change⟩] := by
  have world := (leads_put parsed sendable [onField true] :
    Leads n.noting (put [onField true]) (o.handle index) o.network _).2.2.2
  have lights : Hue.perform .turnOn = put [onField true] := by rw [Hue.perform]
  refine ⟨.object ((o.handle index).timed [onField true]), ?_⟩
  rw [← noting_asked (n := n), ← world, network_call index .turnOn, lights, Outlet.handle]

end Outlet

namespace Connector

/-- The requests of a conversation with a light, in order. -/
def requests {σ S α : Type} (c : Connector) (n : Network σ) (s : σ)
    (x : Dialogue S Question Question.Answer α) : List Request :=
  (x.run (Outlet.answer n.noting) (Outlet.new c (s, []))).2.network.2

variable {σ : Type} (c : Connector) (n : Network σ) (s : σ)

theorem requests_go {S α : Type} (x : Dialogue S Question Question.Answer α) :
    ∀ r ∈ c.requests n s x, r.GoesTo c.handle.address := by
  have new : (Outlet.new c (s, [])).Directed c.handle.address :=
    ⟨rfl, List.forall_mem_nil _, List.forall_mem_nil _⟩
  have directed := Dialogue.run_keeps (fun q o (h : Outlet.Directed c.handle.address o) =>
    Outlet.Directed.answer (n := n) h q) x new
  exact directed.asked

/-- To open a handle and to turn the light on. -/
def lighting : Dialogue Unit Question Question.Answer Unit :=
  .ask () .connect fun _ => .ask () (.call 0 .turnOn) fun _ => .done ()

/-- A light that can be asked for is read, and changed. -/
theorem requests_lighting (sendable : (Url.parse? c.handle.address).any Url.isSendable = true) :
    ∃ reading change, c.requests n s lighting = [reading, change] ∧
      reading.body.isSome = false ∧ change.body.isSome = true := by
  obtain ⟨light, parsed, sendable'⟩ := (Option.any_eq_true _ _).mp sendable
  obtain ⟨state, parsed', sendable''⟩ := (Option.any_eq_true _ _).mp (c.reaches sendable).state
  have new : (Outlet.new c (s, ([] : List Request))).Directed c.handle.address :=
    ⟨rfl, List.forall_mem_nil _, List.forall_mem_nil _⟩
  have read := Outlet.asked_connect (n := n) (o := .new c (s, [])) parsed sendable'
  have known := (new.answer (n := n) .connect).address_handle 0
  rw [← known] at parsed'
  obtain ⟨change, changed⟩ := Outlet.asked_turnOn (n := n) parsed' sendable''
  rw [read] at changed
  refine ⟨⟨light, none⟩, ⟨state, some change⟩, ?_, rfl, rfl⟩
  simp only [requests, lighting, Dialogue.run, changed]
  rfl

theorem sendable_of_connect {c : Connector} {n : Network σ} {s : σ}
    (connects : (c.connect.run n s).1.isOk = true) :
    (Url.parse? c.handle.address).any Url.isSendable = true := by
  refine Decidable.byContradiction fun refused => ?_
  obtain ⟨cause, broken⟩ := (leads_fetch_refused refused s : Leads n fetch c.handle s _)
  change Except.isOk (((fetch.run.run c.handle).bind _).run n s).1 = true at connects
  rw [Dialogue.run_bind] at connects
  rw [ending] at broken
  generalize (fetch.run.run c.handle).run n s = r at connects broken
  obtain ⟨⟨_ | _, _⟩, _⟩ := r
  · cases connects
  · cases broken

/-- A bridge is given by its host, or by an address of that; slashes at its end do not matter. -/
def Gives (site bridge : String) : Prop :=
  ∃ scheme ∈ ["", plainStart, secureStart], ∃ slashes : Nat,
    bridge = scheme ++ site ++ String.ofList (List.replicate slashes '/')

/-- Slashes at the end of an address that ends with a host are dropped. -/
theorem dropped_slashes {site : List Char} (host : IsSite site) (scheme : List Char) (slashes : Nat) :
    ((scheme ++ site ++ List.replicate slashes '/').reverse.dropWhile (· = '/')).reverse =
      scheme ++ site := by
  obtain ⟨last, front, rev⟩ :=
    List.exists_cons_of_ne_nil (show site.reverse ≠ [] by simpa using host.some)
  have plain : last ≠ '/' := by
    rintro rfl
    have := host.plain '/' (List.mem_reverse.mp (rev ▸ List.mem_cons_self))
    cases this
  rw [List.reverse_append, List.reverse_append, rev, List.reverse_replicate,
    List.dropWhile_append_of_pos (by simp), List.cons_append,
    List.dropWhile_cons_of_neg (by simpa using plain), ← List.cons_append, ← rev,
    ← List.reverse_append, List.reverse_reverse]

/-- The address of a light, from the host of its bridge. -/
theorem exists_scheme {site bridge : String} (host : IsSite site.toList) (given : Gives site bridge)
    (username light : String) : ∃ scheme, (scheme = plainStart ∨ scheme = secureStart) ∧
      (Connector.new bridge username light).handle.address.toList =
        scheme.toList ++ (site.toList ++ '/' :: (pathTo username.toList ++ light.toList)) := by
  obtain ⟨scheme, known, slashes, rfl⟩ := given
  have dropped : String.ofList ((scheme ++ site ++
      String.ofList (List.replicate slashes '/')).toList.reverse.dropWhile (· = '/')).reverse =
        scheme ++ site := by
    rw [← String.toList_inj, String.toList_ofList, String.toList_append, String.toList_append,
      String.toList_ofList, dropped_slashes host]
  have unmarked {start : String} (mark : '/' ∈ start.toList) : site.startsWith start = false := by
    rw [Bool.eq_false_iff, ne_eq, String.startsWith_string_iff]
    intro ahead
    have := host.plain '/' (ahead.subset mark)
    cases this
  have marked (start : String) : (start ++ site).startsWith start = true := by
    rw [String.startsWith_string_iff, String.toList_append]
    exact List.prefix_append _ _
  have address (base : String) : (Connector.handle ⟨base ++ "/api/" ++ username, light⟩).address.toList =
      base.toList ++ '/' :: (pathTo username.toList ++ light.toList) := by
    simp [Connector.handle, pathTo]
  simp only [List.mem_cons, List.not_mem_nil, or_false] at known
  rw [Connector.new, dropped]
  rcases known with rfl | rfl | rfl
  · refine ⟨plainStart, .inl rfl, ?_⟩
    rw [if_neg, address]
    · simp
    · rw [String.empty_append, unmarked (by decide), unmarked (by decide)]
      exact nofun
  · refine ⟨plainStart, .inl rfl, ?_⟩
    rw [if_pos (by rw [marked]; rfl), address, String.toList_append, List.append_assoc]
  · refine ⟨secureStart, .inr rfl, ?_⟩
    rw [if_pos (by rw [marked, Bool.or_true]), address, String.toList_append, List.append_assoc]

/-- What a request asks for, if it goes where it belongs. -/
theorem target_of_goesTo {site bridge username : String} (light : String) (host : IsSite site.toList)
    (given : Gives site bridge) (safe : ∀ c ∈ username.toList, isUnreserved c = true) {r : Request}
    (goes : r.GoesTo (Connector.new bridge username light).handle.address) :
    r.url.target = asked ('/' ::
      (pathTo username.toList ++ trimmed (counted (light.toList ++ r.more.toList)))) := by
  obtain ⟨scheme, known, written⟩ := exists_scheme host given username light
  refine target_of_parse? known host (seen_of_mem_pathTo safe) ?_ goes
  rw [String.toList_append, written]
  simp only [List.append_assoc, List.cons_append]

/-- What is asked for at one step behind the way to the lights. -/
theorem toList_step (username step : String) (changes : Bool) :
    ("/api/" ++ username ++ "/lights/" ++ step ++ (if changes then "/state" else "")).toList =
      joined (wayTo username.toList ++ step.toList :: if changes then ["state".toList] else []) := by
  cases changes <;> simp [joined, wayTo]

/-- **The requests of a light stay at the light exactly if its identifier is one step of a path.**  When
a handle can be opened, there is one step behind the way to the lights of the user that every reading asks
for, in all conversations over any network, and every change asks for its state, if and only if the
identifier reads as one step there. -/
theorem requests_stay_iff {site bridge username : String} (light : String) (host : IsSite site.toList)
    (given : Gives site bridge) (safe : ∀ c ∈ username.toList, isUnreserved c = true)
    {n : Network σ} {s : σ}
    (connects : ((Connector.new bridge username light).connect.run n s).1.isOk = true) :
    (∃ step : String, '/' ∉ step.toList ∧ '?' ∉ step.toList ∧
      ∀ (σ : Type) (n : Network σ) (s : σ) (S α : Type) (x : Dialogue S Question Question.Answer α),
        ∀ r ∈ (Connector.new bridge username light).requests n s x,
          r.url.target = "/api/" ++ username ++ "/lights/" ++ step ++
            (if r.body.isSome then "/state" else "")) ↔
      Stays username light := by
  have reading {r : Request} (goes : r.GoesTo (Connector.new bridge username light).handle.address)
      (bodyless : r.body.isSome = false) : r.url.target =
        asked ('/' :: (pathTo username.toList ++ trimmed (counted light.toList))) := by
    have target := target_of_goesTo light host given safe goes
    rwa [Request.more, bodyless, if_neg Bool.false_ne_true, String.toList_empty,
      List.append_nil] at target
  have change {r : Request} (goes : r.GoesTo (Connector.new bridge username light).handle.address)
      (body : r.body.isSome = true) : r.url.target =
        asked ('/' :: (pathTo username.toList ++ (counted light.toList ++ "/state".toList))) := by
    have target := target_of_goesTo light host given safe goes
    rwa [Request.more, body, if_pos rfl, trimmed_state] at target
  rw [← asked_iff safe]
  constructor
  · rintro ⟨step, single, queryless, all⟩
    -- a reading and a change are enough
    obtain ⟨read, put, asks, bodyless, body⟩ := requests_lighting _ n s (sendable_of_connect connects)
    have there := all σ n s _ _ lighting
    have goes := requests_go (Connector.new bridge username light) n s lighting
    rw [asks] at there goes
    obtain ⟨there₁, there₂, -⟩ := List.forall_mem_cons.mp there |>.imp_right List.forall_mem_cons.mp
    obtain ⟨goes₁, goes₂, -⟩ := List.forall_mem_cons.mp goes |>.imp_right List.forall_mem_cons.mp
    refine ⟨step.toList, single, queryless, ?_, ?_⟩
    · rw [← reading goes₁ bodyless, there₁, toList_step, bodyless]
      rfl
    · rw [← change goes₂ body, there₂, toList_step, body]
      rfl
  · rintro ⟨step, single, queryless, read, changed⟩
    refine ⟨String.ofList step, by rwa [String.toList_ofList], by rwa [String.toList_ofList], ?_⟩
    intro σ n s S α x r hr
    have goes := requests_go _ n s x r hr
    rw [← String.toList_inj, toList_step, String.toList_ofList]
    cases changes : r.body.isSome with
    | false =>
      rw [reading goes changes, read]
      rfl
    | true =>
      rw [change goes changes, changed]
      rfl

/-- A light of a bridge whose address ends with a slash. -/
theorem requests_stay_iff_numbered :
    let light := Connector.new "http://10.0.0.2/" "me" "1"
    let bridge : Bridge := ⟨.object [("state", .object [onField false])]⟩
    IsSite "10.0.0.2".toList ∧ Gives "10.0.0.2" "http://10.0.0.2/" ∧
      (∀ c ∈ "me".toList, isUnreserved c = true) ∧
      (light.connect.run Bridge.answer bridge).1.isOk = true ∧
      ∃ step : String, '/' ∉ step.toList ∧ '?' ∉ step.toList ∧
        ∀ r ∈ light.requests Bridge.answer bridge lighting,
          r.url.target = "/api/" ++ "me" ++ "/lights/" ++ step ++
            (if r.body.isSome then "/state" else "") := by
  intro light bridge
  have host : IsSite "10.0.0.2".toList :=
    ⟨by decide, List.all_iff_forall_prop.mp (by decide), List.all_iff_forall_prop.mp (by decide)⟩
  have given : Gives "10.0.0.2" "http://10.0.0.2/" := ⟨plainStart, by decide, 1, by decide⟩
  have safe : ∀ c ∈ "me".toList, isUnreserved c = true :=
    List.all_iff_forall_prop.mp (by decide)
  have connects : (light.connect.run Bridge.answer bridge).1.isOk = true := by decide +kernel
  have stays : Stays "me" "1" := stays_of_plain (by decide)
    (List.all_iff_forall_prop.mp (by decide)) (by decide) (by decide)
  obtain ⟨step, single, queryless, all⟩ :=
    (requests_stay_iff "1" host given safe connects).mpr stays
  exact ⟨host, given, safe, connects, step, single, queryless, all _ _ _ _ _ lighting⟩

/-- A question mark in an identifier begins a query, which takes the state with it. -/
theorem query_leads_away :
    let light := Connector.new "10.0.0.2" "me" "1?x"
    let bridge : Bridge := ⟨.object [("state", .object [onField false])]⟩
    (light.connect.run Bridge.answer bridge).1.isOk = true ∧
      (light.requests Bridge.answer bridge lighting).map (·.url.target) =
        ["/api/me/lights/1?x", "/api/me/lights/1?x/state"] ∧
      ¬ ∃ step : String, '/' ∉ step.toList ∧ '?' ∉ step.toList ∧
        ∀ r ∈ light.requests Bridge.answer bridge lighting,
          r.url.target = "/api/" ++ "me" ++ "/lights/" ++ step ++
            (if r.body.isSome then "/state" else "") := by
  intro light bridge
  have targets : (light.requests Bridge.answer bridge lighting).map (·.url.target) =
      ["/api/me/lights/1?x", "/api/me/lights/1?x/state"] := by decide +kernel
  refine ⟨by decide +kernel, targets, ?_⟩
  rintro ⟨step, -, queryless, all⟩
  have first : "/api/me/lights/1?x" ∈ (light.requests Bridge.answer bridge lighting).map (·.url.target) :=
    targets ▸ List.mem_cons_self
  obtain ⟨r, hr, here⟩ := List.mem_map.mp first
  have mark : '?' ∈ (("/api/" ++ "me" ++ "/lights/") ++ step ++
      (if r.body.isSome then "/state" else "")).toList := by
    rw [← all r hr, here]
    decide
  rw [String.toList_append, String.toList_append, List.mem_append, List.mem_append] at mark
  rcases mark with (mark | mark) | mark
  · exact absurd mark (by decide)
  · exact queryless mark
  · split at mark
    · exact absurd mark (by decide)
    · exact absurd mark (by decide)

end Connector

end Hue

end Lightshow
