/-
A configuration that was loaded is safe to run.

Validation comes last, after the file and the environment, so that whatever they say, a configuration
that is loaded has been validated: a bridge can be found, no wait is endless or none at all, and the
retry interval begins below its ceiling.  A player inherits this: its waits never leave the two bounds,
and they only grow until a command goes through.

* `Config.validate_eq_ok_iff` -- what validation accepts;
* `Backoff.interval_mono`, `streak_le_append` -- waits grow within a streak of failures;
* `Program.venue_of_prepare` -- a show that the program prepares has its place;
* `Config.load_safe` -- what a loaded configuration means for a show and for the waits of its player.
-/
import Lightshow.Program.Run
import Lightshow.Proofs.Lights
import Lightshow.Proofs.Waiting
import Mathlib.Data.List.Induction
import Mathlib.Tactic.SplitIfs

namespace Lightshow

open Talk

/-! ### Validation -/

namespace Config

/-- A configuration that a player can run with. -/
structure Usable (c : Config) : Prop where
  bridge : c.bulb.driver = .hue → ∃ host username, c.bulb.bridge = some host ∧ host ≠ "" ∧
    c.bulb.username = some username ∧ username ≠ ""
  timeout : c.bulb.timeout ≠ 0
  initial : c.playback.backoffInitial ≠ 0
  ceiling : c.playback.backoffInitial ≤ c.playback.backoffMax

theorem isGiven_iff {text : Option String} : isGiven text = true ↔ ∃ s, text = some s ∧ s ≠ "" := by
  cases text with
  | none => exact ⟨nofun, fun ⟨_, h, _⟩ => nomatch h⟩
  | some s => simp [isGiven]

theorem validate_eq_ok_iff {c : Config} : c.validate = .ok () ↔ c.Usable := by
  rw [validate]
  split_ifs with bridge username timeout initial ceiling
  · refine iff_of_false nofun fun h => ?_
    obtain ⟨host, _, given, some, -⟩ := h.bridge bridge.1
    have := isGiven_iff.mpr ⟨host, given, some⟩
    simp [this] at bridge
  · refine iff_of_false nofun fun h => ?_
    obtain ⟨_, name, -, -, given, some⟩ := h.bridge username.1
    have := isGiven_iff.mpr ⟨name, given, some⟩
    simp [this] at username
  · exact iff_of_false nofun fun h => h.timeout timeout
  · exact iff_of_false nofun fun h => h.initial initial
  · exact iff_of_false nofun fun h => absurd ceiling (UInt64.not_lt.mpr h.ceiling)
  · refine iff_of_true rfl ⟨fun hue => ?_, timeout, initial, UInt64.not_lt.mp ceiling⟩
    simp only [hue, true_and, Bool.not_eq_true, Bool.not_eq_false'] at bridge username
    obtain ⟨host, found, given⟩ := isGiven_iff.mp bridge
    obtain ⟨name, known, named⟩ := isGiven_iff.mp username
    exact ⟨host, name, found, given, known, named⟩

/-- Whatever the file and the environment say, it has been validated. -/
theorem usable_of_load {files : Files} {env : Environment} {c : Config}
    (loaded : load files env = .ok c) : c.Usable := by
  rw [load] at loaded
  obtain ⟨read, -, loaded⟩ := Json.bind_eq_ok_iff.mp loaded
  obtain ⟨overridden, -, loaded⟩ := Json.bind_eq_ok_iff.mp loaded
  obtain ⟨⟨⟩, valid, same⟩ := Json.bind_eq_ok_iff.mp loaded
  exact Except.ok.inj same ▸ validate_eq_ok_iff.mp valid

end Config

/-! ### Growing waits -/

theorem Duration.nanos_ofWholeSeconds (n : UInt64) :
    (ofWholeSeconds n).nanos = n.toNat * nanosPerSecond := by
  have small := n.toNat_lt
  refine Nat.min_eq_left ?_
  simp only [nanosPerSecond, longest]
  omega

namespace Backoff

variable {initial ceiling : Duration}

theorem nanos_interval (initial ceiling : Duration) (k : Nat) : (interval initial ceiling k).nanos =
    min (min (initial.nanos * 2 ^ k) Duration.longest) ceiling.nanos :=
  Duration.nanos_min _ _

theorem interval_mono {j k : Nat} (h : j ≤ k) :
    (interval initial ceiling j).nanos ≤ (interval initial ceiling k).nanos := by
  have longer : initial.nanos * 2 ^ j ≤ initial.nanos * 2 ^ k :=
    Nat.mul_le_mul_left _ (Nat.pow_le_pow_right (by decide) h)
  rw [nanos_interval, nanos_interval]
  omega

/-- The first wait of a streak is the shortest. -/
theorem initial_le_interval (h : initial.nanos ≤ ceiling.nanos) (k : Nat) :
    initial.nanos ≤ (interval initial ceiling k).nanos := by
  have short := initial.nanos_le
  have first : initial.nanos ≤ (interval initial ceiling 0).nanos := by
    rw [nanos_interval]
    omega
  exact Nat.le_trans first (interval_mono (Nat.zero_le k))

theorem interval_le_ceiling (k : Nat) : (interval initial ceiling k).nanos ≤ ceiling.nanos := by
  rw [nanos_interval]
  exact Nat.min_le_right _ _

end Backoff

section

variable {W : Type}

/-- As long as no execution is over that has not failed, a streak goes on. -/
theorem streak_le_append (T : List (Turn Player Question Question.Answer W))
    {U : List (Turn Player Question Question.Answer W)} (unexecuted : ∀ u ∈ U, u.executed = false) :
    streak T ≤ streak (T ++ U) := by
  induction U using List.reverseRecOn with
  | nil => rw [List.append_nil]
  | append_singleton U u ih =>
    have before := ih fun v hv => unexecuted v (List.mem_append_left _ hv)
    have last := unexecuted u (by simp)
    rw [← List.append_assoc, streak_concat, last, if_neg Bool.false_ne_true]
    split_ifs
    · exact Nat.le_succ_of_le before
    · exact before

/-- The waits before a retry in the turns of a playback stay within two bounds, last some time, and
never get shorter without an execution between them that is over and has not failed. -/
structure RetriesWithin (low high : Duration) (T : List (Turn Player Question Question.Answer W)) :
    Prop where
  bounded : ∀ t ∈ T, ∀ length, t.question = .pause .retrying length →
    low.nanos ≤ length.nanos ∧ length.nanos ≤ high.nanos ∧ 0 < length.nanos
  grows : ∀ before t between t' later length length',
    T = before ++ t :: (between ++ t' :: later) → (∀ u ∈ between, u.executed = false) →
    t.question = .pause .retrying length → t'.question = .pause .retrying length' →
    length.nanos ≤ length'.nanos

/-- A player whose retry interval begins with some time, and below its ceiling, stays within both. -/
theorem Player.run_retriesWithin (answer : (q : Question) → W → q.Answer × W) (bulb : String)
    (script : Script) {initial ceiling : Duration} (positive : 0 < initial.nanos)
    (below : initial.nanos ≤ ceiling.nanos) (fuel : Nat) (w : W) :
    RetriesWithin initial ceiling
      ((run fuel).turns answer (new bulb script (.start initial ceiling)) w) := by
  -- every wait is an interval, by the streak before it
  have spaced {before later : List (Turn Player Question Question.Answer W)}
      {t : Turn Player Question Question.Answer W} {length : Duration}
      (split : (run fuel).turns answer (new bulb script (.start initial ceiling)) w =
        before ++ t :: later) (asks : t.question = .pause .retrying length) :
      length = Backoff.interval initial ceiling (streak before) :=
    (run_spaced answer bulb script initial ceiling fuel w split length asks).1
  constructor
  · intro t ht length asks
    obtain ⟨before, later, split⟩ := List.append_of_mem ht
    rw [spaced split asks]
    have least := Backoff.initial_le_interval below (streak before)
    exact ⟨least, Backoff.interval_le_ceiling _, by omega⟩
  · intro before t between t' later length length' split unexecuted asks asks'
    have split' : (run fuel).turns answer (new bulb script (.start initial ceiling)) w =
        (before ++ t :: between) ++ t' :: later := by
      rw [split, List.append_assoc, List.cons_append]
    rw [spaced split asks, spaced split' asks']
    refine Backoff.interval_mono (streak_le_append before ?_)
    refine List.forall_mem_cons.mpr ⟨?_, unexecuted⟩
    obtain ⟨p, q, r, w⟩ := t
    obtain rfl : q = .pause .retrying length := asks
    rfl

end

/-! ### Loaded configurations -/

/-- A usable configuration has a place for the show. -/
theorem Config.Usable.venue {s : Program.Show} (h : s.config.Usable) : s.venue? ≠ none := by
  rw [Program.Show.venue?]
  cases driver : s.config.bulb.driver with
  | simulated => exact nofun
  | hue =>
    obtain ⟨host, username, found, -, known, -⟩ := h.bridge driver
    rw [found, known]
    exact nofun

theorem Program.load_of_prepare {arguments : List String} {files : Files} {env : Environment} {s : Show}
    (h : prepare arguments files env = .ok s) : Config.load files env = .ok s.config := by
  rw [prepare] at h
  split at h
  · contradiction
  split at h
  · contradiction
  rename_i loaded
  split at h
  · contradiction
  · obtain rfl := Except.ok.inj h
    exact loaded

/-- Every show that the program prepares has its place. -/
theorem Program.venue_of_prepare {arguments : List String} {files : Files} {env : Environment} {s : Show}
    (h : prepare arguments files env = .ok s) : s.venue? ≠ none :=
  (Config.usable_of_load (load_of_prepare h)).venue

/-- A configuration that was loaded, from whatever file and environment, is safe to run: a bridge is
given by its host and a user name, neither of them empty, requests have some time, and a show with the
configuration has its place.  In every playback of such a show, each wait before a retry lies between
the two intervals of the configuration and is not zero, and from one wait to a later one it never gets
shorter unless an execution without a failure comes between them. -/
theorem Config.load_safe {files : Files} {env : Environment} {c : Config}
    (loaded : load files env = .ok c) :
    (c.bulb.driver = .hue → ∃ host username, c.bulb.bridge = some host ∧ host ≠ "" ∧
      c.bulb.username = some username ∧ username ≠ "") ∧
    0 < (Duration.ofWholeSeconds c.bulb.timeout).nanos ∧
    ∀ s : Program.Show, s.config = c → s.venue? ≠ none ∧
      ∀ (W : Type) (answer : (q : Question) → W → q.Answer × W) (fuel : Nat) (w : W),
        RetriesWithin (.ofWholeSeconds c.playback.backoffInitial)
          (.ofWholeSeconds c.playback.backoffMax) ((Player.run fuel).turns answer s.player w) := by
  have usable := usable_of_load loaded
  have positive {n : UInt64} (h : n ≠ 0) : 0 < (Duration.ofWholeSeconds n).nanos := by
    rw [Duration.nanos_ofWholeSeconds]
    exact Nat.mul_pos (Nat.pos_of_ne_zero fun zero => h (UInt64.toNat_inj.mp zero)) (by decide)
  refine ⟨usable.bridge, positive usable.timeout, ?_⟩
  rintro s rfl
  refine ⟨usable.venue, fun W answer fuel w => ?_⟩
  refine Player.run_retriesWithin answer s.bulb s.script (positive usable.initial) ?_ fuel w
  rw [Duration.nanos_ofWholeSeconds, Duration.nanos_ofWholeSeconds]
  exact Nat.mul_le_mul_right _ (UInt64.le_iff_toNat_le.mp usable.ceiling)

/-- A bridge in the file and a user name in the environment: when the lamp of a fade is lost, the player
waits for two seconds and then for four, however often it has to. -/
theorem Config.load_safe_of_bridge :
    let text := "bulb:\n  bridge: b\nplayback:\n  backoff_initial_secs: 2\n  backoff_max_secs: 4\n"
    let files : Files := ⟨["home"], [(["home", usualPath], .file text.toUTF8)]⟩
    let env : Environment := fun name => if name = usernameVariable then some "u" else none
    let s : Program.Show :=
      ⟨⟨⟨.hue, some "b", some "u", 5⟩, ⟨2, 4⟩⟩, ⟨[⟨0, .fade, [1]⟩]⟩, "show.ls", "lamp"⟩
    let turns := (Player.run 5).turns Performance.answer s.player (Performance.ofLamp fun
      | 8 => [.failCalls 1, .failConnects 2]
      | 18 => [.stop]
      | 19 => [.failConnects 1]
      | _ => [])
    load files env = .ok s.config ∧ s.venue? = some (.bridge "b" "u") ∧
      turns.filterMap (fun t => match t.question with
        | .pause .retrying length => some length
        | _ => none) = [2, 4, 4, 4].map Duration.ofWholeSeconds ∧
      RetriesWithin (.ofWholeSeconds 2) (.ofWholeSeconds 4) turns := by
  intro text files env s turns
  have steps : Files.steps usualPath = [usualPath] := by
    rw [Files.steps, usualPath, String.splitOn, if_neg (by decide)]
    iterate 17 rw [String.splitOnAux]
    rfl
  have found : files.find usualPath = .ok (.file text.toUTF8) := by
    have relative : usualPath.startsWith "/" = false := by decide +kernel
    have plain : (usualPath.endsWith "/" || usualPath.endsWith "/.") = false := by decide +kernel
    rw [Files.find, steps, Files.start, relative]
    simp only [plain]
    rfl
  have spelt : (ofYaml text usualPath).toOption = some ⟨⟨.hue, some "b", none, 5⟩, ⟨2, 4⟩⟩ := by
    decide +kernel
  have loaded : load files env = .ok s.config := by
    have named : inFiles files env = ofYaml text usualPath := by
      change (if files.isFile usualPath then ofFile files usualPath else .ok usual) = _
      rw [Files.isFile, ofFile, Files.read, found]
      have utf : String.fromUTF8? text.toUTF8 = some text := by decide +kernel
      simp only [utf, if_true]
    rw [load, named]
    match read : ofYaml text usualPath, spelt with
    | .ok _, rfl => rfl
  refine ⟨loaded, rfl, by decide +kernel, ?_⟩
  exact ((load_safe loaded).2.2 s rfl).2 _ Performance.answer 5 _

end Lightshow
