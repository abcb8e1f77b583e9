/-
Paths of the web, and what is asked of a host.

A path is a text with slashes.  It is cut into steps, which are walked: a dot stays, two dots go back, and
all others go on.  What is asked of a host is the way that was gone, with every step encoded, and the query
behind it.

* `Host.exists_split`, `Host.split_append_separator` -- the pieces of a text;
* `Percent.mem_encode`, `Percent.eq_of_encode` -- what encoding leaves;
* `Url.walk_concat` -- a walk is all steps but the last, and then the last;
* `Url.joined_inj` -- steps can be read off what is written;
* `Url.toList_asked` -- what is asked by a path without a query;
* `Url.target_of_parse?` -- what is asked for at an address, from its text.
-/
import Lightshow.Proofs.Addresses
import Mathlib.Data.Bool.AllAny

namespace Lightshow.Web

/-! ### Pieces between separators -/

namespace Host

variable {separator : Char} {a b : List Char}

theorem split_ne_nil (separator : Char) (cs : List Char) : split separator cs ≠ [] := by
  cases cs with
  | nil => exact nofun
  | cons c cs =>
    rw [split]
    split
    · exact nofun
    · split <;> exact nofun

/-- A character that does not separate goes to the first piece. -/
theorem split_cons {c : Char} (h : c ≠ separator) :
    split separator (c :: a) = (c :: (split separator a).head (split_ne_nil _ _)) ::
      (split separator a).tail := by
  rw [split, if_neg h]
  split
  next none => exact absurd none (split_ne_nil _ _)
  next first more some => simp only [some, List.head_cons, List.tail_cons]

theorem split_append_separator (a b : List Char) :
    split separator (a ++ separator :: b) = split separator a ++ split separator b := by
  induction a with
  | nil => exact (if_pos rfl : split separator (separator :: b) = [] :: split separator b)
  | cons c a ih =>
    by_cases same : c = separator
    · rw [List.cons_append, split, if_pos same, ih, split, if_pos same]
      rfl
    · rw [List.cons_append, split_cons same, split_cons same]
      simp only [ih, List.head_append_of_ne_nil (split_ne_nil separator a),
        List.tail_append_of_ne_nil (split_ne_nil separator a), List.cons_append]

theorem split_of_not_mem (h : separator ∉ a) : split separator a = [a] := by
  induction a with
  | nil => rfl
  | cons c a ih =>
    have other : c ≠ separator := fun same => h (same ▸ List.mem_cons_self)
    have rest := ih fun hc => h (List.mem_cons_of_mem _ hc)
    rw [split_cons other]
    simp only [rest, List.head_cons, List.tail_cons]

theorem not_mem_of_mem_split {piece : List Char} (h : piece ∈ split separator a) :
    separator ∉ piece := by
  induction a generalizing piece with
  | nil =>
    obtain rfl := List.mem_singleton.mp h
    exact List.not_mem_nil
  | cons c a ih =>
    by_cases same : c = separator
    · rw [split, if_pos same] at h
      rcases List.mem_cons.mp h with rfl | h
      · exact List.not_mem_nil
      · exact ih h
    · rw [split_cons same] at h
      rcases List.mem_cons.mp h with rfl | h
      · intro hc
        rcases List.mem_cons.mp hc with rfl | hc
        · exact same rfl
        · exact ih (List.head_mem _) hc
      · exact ih (List.mem_of_mem_tail h)

/-- The pieces in front of the last one, and the last one. -/
theorem exists_split (separator : Char) (cs : List Char) : ∃ front last,
    split separator cs = front ++ [last] ∧ separator ∉ last ∧
    (∀ tail, separator ∉ tail → split separator (cs ++ tail) = front ++ [last ++ tail]) := by
  induction cs with
  | nil => exact ⟨[], [], rfl, List.not_mem_nil, fun tail h => split_of_not_mem h⟩
  | cons c cs ih =>
    obtain ⟨front, last, pieces, plain, longer⟩ := ih
    by_cases same : c = separator
    · refine ⟨[] :: front, last, ?_, plain, fun tail h => ?_⟩
      · rw [split, if_pos same, pieces]; rfl
      · rw [List.cons_append, split, if_pos same, longer tail h]; rfl
    · cases front with
      | nil =>
        refine ⟨[], c :: last, ?_, ?_, fun tail h => ?_⟩
        · rw [split_cons same]
          simp only [pieces]
          rfl
        · exact fun hc => (List.mem_cons.mp hc).elim (fun eq => same eq.symm) plain
        · rw [List.cons_append, split_cons same]
          simp only [longer tail h]
          rfl
      | cons first front =>
        refine ⟨(c :: first) :: front, last, ?_, plain, fun tail h => ?_⟩
        · rw [split_cons same]
          simp only [pieces]
          rfl
        · rw [List.cons_append, split_cons same]
          simp only [longer tail h]
          rfl

end Host

/-! ### Encoded steps -/

namespace Percent

theorem encode_append (set : Char → Bool) (a b : List Char) :
    encode set (a ++ b) = encode set a ++ encode set b := List.flatMap_append

theorem encode_cons (set : Char → Bool) (c : Char) (cs : List Char) : encode set (c :: cs) =
    (if set c then (String.utf8EncodeChar c).flatMap encodeByte else [c]) ++ encode set cs :=
  List.flatMap_cons

theorem encode_of_plain {set : Char → Bool} {cs : List Char} (h : ∀ c ∈ cs, set c = false) :
    encode set cs = cs := by
  induction cs with
  | nil => rfl
  | cons c cs ih =>
    rw [encode_cons, h c List.mem_cons_self, ih fun d hd => h d (List.mem_cons_of_mem _ hd)]
    rfl

theorem isAlphanum_hexDigit {n : Nat} (h : n < 16) : (hexDigit n).isAlphanum = true := by
  have all : ∀ n : Fin 16, (hexDigit n).isAlphanum = true := by decide
  exact all ⟨n, h⟩

/-- What is put in place of a character is a percent sign, digits, and more of the same. -/
theorem replacement (c : Char) : ∃ ds, (String.utf8EncodeChar c).flatMap encodeByte = '%' :: ds ∧
    ∀ d ∈ ds, d = '%' ∨ d.isAlphanum = true := by
  have byte (b : UInt8) : ∀ d ∈ encodeByte b, d = '%' ∨ d.isAlphanum = true := by
    have := b.toNat_lt
    intro d hd
    simp only [encodeByte, List.mem_cons, List.not_mem_nil, or_false] at hd
    rcases hd with rfl | rfl | rfl
    · exact .inl rfl
    · exact .inr (isAlphanum_hexDigit (by omega))
    · exact .inr (isAlphanum_hexDigit (by omega))
  obtain ⟨b, bs, bytes⟩ := List.exists_cons_of_ne_nil (String.utf8EncodeChar_ne_nil (c := c))
  have all : ∀ d ∈ (b :: bs).flatMap encodeByte, d = '%' ∨ d.isAlphanum = true := by
    intro d hd
    obtain ⟨b', -, hd⟩ := List.mem_flatMap.mp hd
    exact byte b' d hd
  rw [bytes]
  exact ⟨_, rfl, fun d hd => all d (List.mem_cons_of_mem _ hd)⟩

/-- Every character leaves something. -/
theorem eq_nil_of_encode {set : Char → Bool} {cs : List Char} (h : encode set cs = []) : cs = [] := by
  cases cs with
  | nil => rfl
  | cons c cs =>
    obtain ⟨ds, replaced, -⟩ := replacement c
    rw [encode_cons, replaced] at h
    split at h <;> exact absurd h nofun

theorem mem_encode {set : Char → Bool} {cs : List Char} {d : Char} (h : d ∈ encode set cs) :
    d = '%' ∨ d.isAlphanum = true ∨ d ∈ cs ∧ set d = false := by
  obtain ⟨c, hc, h⟩ := List.mem_flatMap.mp h
  obtain ⟨ds, replaced, others⟩ := replacement c
  rw [replaced] at h
  split at h
  · rcases List.mem_cons.mp h with rfl | h
    · exact .inl rfl
    · exact (others d h).imp id .inl
  next kept =>
    obtain rfl := List.mem_singleton.mp h
    exact .inr (.inr ⟨hc, by simpa using kept⟩)

/-- A text without percent signs comes from no other text. -/
theorem eq_of_encode {set : Char → Bool} {cs : List Char} (plain : '%' ∉ encode set cs) :
    encode set cs = cs := by
  refine encode_of_plain fun c hc => ?_
  refine Bool.eq_false_iff.mpr fun replaces => plain ?_
  obtain ⟨ds, replaced, -⟩ := replacement c
  refine List.mem_flatMap.mpr ⟨c, hc, ?_⟩
  rw [if_pos replaces, replaced]
  exact List.mem_cons_self

end Percent

/-! ### Steps of a path -/

namespace Url

/-- Goes along steps, of which none is the last; `walked` are those so far, newest first. -/
def wander (walked : List (List Char)) (ss : List (List Char)) : List (List Char) :=
  ss.foldl (fun walked step => if isDoubleDot step then walked.drop 1
    else if isDot step then walked else step :: walked) walked

/-- Goes along the last step. -/
def arrive (walked : List (List Char)) (last : List Char) : List (List Char) :=
  if isDoubleDot last then [] :: walked.drop 1
  else if isDot last then [] :: walked else last :: walked

theorem walk_concat (walked ss : List (List Char)) (last : List Char) :
    walk walked (ss ++ [last]) = (arrive (wander walked ss) last).reverse := by
  induction ss generalizing walked with
  | nil =>
    rw [List.nil_append, walk, arrive]
    show (if _ then _ else if _ then _ else _) =
      (if isDoubleDot last then _ else if isDot last then _ else _ : List (List Char)).reverse
    split
    · rfl
    · split <;> rfl
  | cons s ss ih =>
    have more : ss ++ [last] ≠ [] := by simp
    rw [List.cons_append, walk]
    · rw [wander, List.foldl_cons]
      split
      · rw [ih]; rfl
      · split
        · rw [ih]; rfl
        · rw [ih]; rfl
    · exact more

/-! ### Texts of paths -/

/-- Steps as they are written, each behind a slash. -/
def joined (ss : List (List Char)) : List Char := ss.flatMap ('/' :: ·)

theorem split_joined {ss : List (List Char)} (plain : ∀ s ∈ ss, '/' ∉ s) :
    Host.split '/' (joined ss) = [] :: ss := by
  have behind (cs : List Char) : Host.split '/' ('/' :: cs) = [] :: Host.split '/' cs :=
    Host.split_append_separator [] cs
  induction ss with
  | nil => rfl
  | cons s ss ih =>
    have first := Host.split_of_not_mem (plain s List.mem_cons_self)
    have ih := ih fun t ht => plain t (List.mem_cons_of_mem _ ht)
    show Host.split '/' ('/' :: (s ++ joined ss)) = _
    rw [behind]
    cases ss with
    | nil =>
      rw [show joined [] = [] from rfl, List.append_nil, first]
    | cons t ss =>
      change Host.split '/' ('/' :: (t ++ joined ss)) = _ at ih
      rw [behind] at ih
      show [] :: Host.split '/' (s ++ '/' :: (t ++ joined ss)) = _
      rw [Host.split_append_separator, first, (List.cons.inj ih).2]
      rfl

theorem joined_inj {ss ss' : List (List Char)} (plain : ∀ s ∈ ss, '/' ∉ s)
    (plain' : ∀ s ∈ ss', '/' ∉ s) (same : joined ss = joined ss') : ss = ss' := by
  have := split_joined plain
  rw [same, split_joined plain'] at this
  exact (List.cons.inj this).2.symm

/-! ### What is asked of a host -/

/-- Slashes of both kinds are one. -/
def slashed (cs : List Char) : List Char := cs.map fun c => if c = '\\' then '/' else c

/-- What is asked of a host by what stands behind it. -/
def asked (rest : List Char) : String :=
  let (rest, _) := cutAt '#' rest
  let (path, query) := cutAt '?' rest
  String.join ((steps path).map ("/" ++ ·)) ++
    (match query.map fun q => String.ofList (Percent.encode Percent.inQuery q) with
      | some q => "?" ++ q
      | none => "")

theorem target_afterStart? {secure : Bool} {cs : List Char} {u : Url}
    (h : afterStart? secure cs = some u) :
    u.target = asked ((cs.dropWhile isSlash).dropWhile (!endsAuthority ·)) := by
  rw [afterStart?] at h
  dsimp only at h
  generalize splitPort false (behindAt ((cs.dropWhile isSlash).takeWhile (!endsAuthority ·))) = parts at h
  obtain ⟨host, port⟩ := parts
  dsimp only at h
  split at h
  · cases h
  obtain ⟨host, -, h⟩ := Option.bind_eq_some_iff.mp h
  obtain ⟨port, -, h⟩ := Option.bind_eq_some_iff.mp h
  obtain rfl := Option.some.inj h
  rfl

variable {x : Char} {cs : List Char}

theorem cutAt_of_not_mem (h : x ∉ cs) : cutAt x cs = (cs, none) := by
  have all : ∀ c ∈ cs, decide (c ≠ x) = true := fun c hc =>
    decide_eq_true fun same => h (same ▸ hc)
  have whole : cs.takeWhile (· ≠ x) = cs := by
    have ends : (cs ++ []).takeWhile (· ≠ x) = cs ++ [] := List.takeWhile_append_of_pos all
    rwa [List.append_nil] at ends
  rw [cutAt, whole, if_neg (Nat.lt_irrefl _)]

theorem takeWhile_append_of_mem (h : x ∈ cs) (more : List Char) :
    (cs ++ more).takeWhile (· ≠ x) = cs.takeWhile (· ≠ x) := by
  induction cs with
  | nil => exact absurd h List.not_mem_nil
  | cons c cs ih =>
    rw [List.cons_append, List.takeWhile_cons, List.takeWhile_cons]
    by_cases same : c = x
    · simp [same]
    · have later : x ∈ cs := (List.mem_cons.mp h).resolve_left fun h => same h.symm
      rw [ih later]

theorem takeWhile_length_lt (h : x ∈ cs) : (cs.takeWhile (· ≠ x)).length < cs.length := by
  refine Nat.lt_of_le_of_ne (List.takeWhile_sublist _).length_le fun all => ?_
  have whole := (List.takeWhile_prefix (p := fun c => decide (c ≠ x))).eq_of_length all
  rw [← whole] at h
  exact of_decide_eq_true (List.all_eq_true.mp List.all_takeWhile x h) rfl

/-- What stands behind a hash is not asked for. -/
theorem asked_append (h : '#' ∈ cs) (more : List Char) : asked (cs ++ more) = asked cs := by
  have front : (cutAt '#' (cs ++ more)).1 = (cutAt '#' cs).1 := takeWhile_append_of_mem h more
  rw [asked, asked]
  dsimp only
  rw [front]

/-- A query shows. -/
theorem question_mem_asked (whole : '#' ∉ cs) (h : '?' ∈ cs) : '?' ∈ (asked cs).toList := by
  rw [asked, cutAt_of_not_mem whole]
  dsimp only
  have query : (cutAt '?' cs).2 = some (cs.drop ((cs.takeWhile (· ≠ '?')).length + 1)) :=
    if_pos (takeWhile_length_lt h)
  rw [query]
  dsimp only [Option.map_some]
  rw [String.toList_append, String.toList_append]
  exact List.mem_append_right _ (List.mem_append_left _ List.mem_cons_self)

/-- Without a query and a fragment, all is path. -/
theorem toList_asked (whole : '#' ∉ cs) (plain : '?' ∉ cs) : (asked ('/' :: cs)).toList =
    joined ((walk [] (Host.split '/' (slashed cs))).map (Percent.encode Percent.inPath)) := by
  have whole' : '#' ∉ '/' :: cs := fun h => (List.mem_cons.mp h).elim (by decide) whole
  have plain' : '?' ∉ '/' :: cs := fun h => (List.mem_cons.mp h).elim (by decide) plain
  rw [asked, cutAt_of_not_mem whole']
  dsimp only
  rw [cutAt_of_not_mem plain']
  dsimp only [Option.map_none]
  have behind : steps ('/' :: cs) = (walk [] (Host.split '/' (slashed cs))).map fun step =>
      String.ofList (Percent.encode Percent.inPath step) := rfl
  have spelled (step : List Char) :
      ("/" ++ String.ofList (Percent.encode Percent.inPath step)).toList =
        '/' :: Percent.encode Percent.inPath step := by
    rw [String.toList_append]
    exact congrArg ('/' :: ·) String.toList_ofList
  rw [behind, String.toList_append, String.toList_join, joined]
  simp only [List.flatMap_map, spelled]
  exact List.append_nil _

/-! ### Texts of addresses -/

theorem filter_dropWhile {p q : Char → Bool} (h : ∀ c, q c = false → p c = true) (cs : List Char) :
    (cs.dropWhile p).filter q = (cs.filter q).dropWhile p := by
  induction cs with
  | nil => rfl
  | cons c cs ih =>
    by_cases drops : p c = true
    · rw [List.dropWhile_cons_of_pos drops, ih, List.filter_cons]
      split
      · rw [List.dropWhile_cons_of_pos drops]
      · rfl
    · have keeps : q c = true := by
        cases out : q c with
        | true => rfl
        | false => exact absurd (h c out) drops
      rw [List.dropWhile_cons_of_neg drops, List.filter_cons_of_pos keeps,
        List.dropWhile_cons_of_neg drops]

theorem counted_trimmed (cs : List Char) : counted (trimmed cs) = trimmed (counted cs) := by
  have edges : ∀ c, isCounted c = false → isEdge c = true := by
    intro c out
    rcases Bool.and_eq_false_iff.mp out with out | out
    · rcases Bool.and_eq_false_iff.mp out with out | out
      · exact Decidable.not_not.mp (of_decide_eq_false out) ▸ rfl
      · exact Decidable.not_not.mp (of_decide_eq_false out) ▸ rfl
    · exact Decidable.not_not.mp (of_decide_eq_false out) ▸ rfl
  rw [counted, trimmed, List.filter_reverse, filter_dropWhile edges, trimmed, counted,
    List.filter_reverse]

theorem cleaned_append {front : List Char} (some : front ≠ []) (seen : ∀ c ∈ front, 0x20 < c.toNat)
    (rest : List Char) : cleaned (front ++ rest) = front ++ trimmed (counted rest) := by
  rw [← counted_trimmed]
  exact cleaned_around [] some seen rest

/-- A host as it is given, with or without a port. -/
structure IsSite (site : List Char) : Prop where
  some : site ≠ []
  seen : ∀ c ∈ site, 0x20 < c.toNat
  plain : ∀ c ∈ site, endsAuthority c = false

/-- What is asked of a host stands behind it. -/
theorem IsSite.target {site : List Char} (h : IsSite site) {secure : Bool} {rest : List Char} {u : Url}
    (parsed : afterStart? secure (site ++ '/' :: rest) = .some u) : u.target = asked ('/' :: rest) := by
  have first : (site ++ '/' :: rest).dropWhile isSlash = site ++ '/' :: rest := by
    obtain ⟨c, site, rfl⟩ := List.exists_cons_of_ne_nil h.some
    have plain := h.plain c List.mem_cons_self
    rw [endsAuthority, Bool.or_eq_false_iff, Bool.or_eq_false_iff] at plain
    exact List.dropWhile_cons_of_neg (by rw [plain.1.1]; exact nofun)
  have whole : ∀ c ∈ site, (!endsAuthority c) = true := fun c hc => by rw [h.plain c hc]; rfl
  rw [target_afterStart? parsed, first, List.dropWhile_append_of_pos whole]
  exact congrArg asked (List.dropWhile_cons_of_neg (by decide))

/-- An address is read behind its scheme. -/
theorem parse?_of_cleaned {scheme text : String} (known : scheme = plainStart ∨ scheme = secureStart)
    {cs : List Char} (clean : cleaned text.toList = scheme.toList ++ cs) :
    ∃ secure, parse? text = afterStart? secure cs := by
  have starts (s : String) (short : s.toList.length ≤ scheme.toList.length) :
      s.toList.isPrefixOf ((scheme.toList ++ cs).map Char.toLower) =
        s.toList.isPrefixOf (scheme.toList.map Char.toLower) := by
    rw [Bool.eq_iff_iff, List.isPrefixOf_iff_prefix, List.isPrefixOf_iff_prefix, List.map_append]
    refine ⟨fun h => List.prefix_of_prefix_length_le h (List.prefix_append _ _) ?_,
      fun h => h.trans (List.prefix_append _ _)⟩
    rwa [List.length_map]
  have dropped : (scheme.toList ++ cs).drop scheme.length = cs := by
    rw [← String.length_toList]
    exact List.drop_left
  rw [parse?, clean]
  dsimp only
  rcases known with rfl | rfl
  · refine ⟨false, ?_⟩
    rw [if_pos ((starts plainStart (by decide)).trans (by decide)), dropped]
  · refine ⟨true, ?_⟩
    rw [if_neg (by rw [starts plainStart (by decide)]; decide),
      if_pos ((starts secureStart (by decide)).trans (by decide)), dropped]

/-- What is asked for at an address whose path begins with visible characters. -/
theorem target_of_parse? {scheme : String} (known : scheme = plainStart ∨ scheme = secureStart)
    {site : List Char} (h : IsSite site) {path rest : List Char} (seen : ∀ c ∈ path, 0x20 < c.toNat)
    {text : String} (written : text.toList = scheme.toList ++ (site ++ '/' :: (path ++ rest))) {u : Url}
    (parsed : parse? text = .some u) : u.target = asked ('/' :: (path ++ trimmed (counted rest))) := by
  have visible : ∀ c ∈ scheme.toList ++ (site ++ '/' :: path), 0x20 < c.toNat := by
    have start : ∀ c ∈ scheme.toList, 0x20 < c.toNat := by
      rcases known with rfl | rfl <;> exact List.all_iff_forall_prop.mp (by decide)
    intro c hc
    rcases List.mem_append.mp hc with hc | hc
    · exact start c hc
    rcases List.mem_append.mp hc with hc | hc
    · exact h.seen c hc
    · exact (List.mem_cons.mp hc).elim (fun same => same ▸ by decide) (seen c)
  have clean : cleaned text.toList =
      scheme.toList ++ (site ++ '/' :: (path ++ trimmed (counted rest))) := by
    have whole := cleaned_append (by simp) visible rest
    simpa only [written, List.append_assoc, List.cons_append] using whole
  obtain ⟨secure, read⟩ := parse?_of_cleaned known clean
  exact h.target (read.symm.trans parsed)

/-! ### Characters that stand for themselves -/

/-- Characters that are safe in every part of an address. -/
def isUnreserved (c : Char) : Bool := c.isAlphanum || "-._~".toList.contains c

/-- A character that is safe is seen, and has no meaning of its own. -/
theorem unreserved {c : Char} (h : isUnreserved c = true) :
    0x20 < c.toNat ∧ c ∉ ['/', '\\', '?', '#', '%'] ∧ Percent.inPath c = false := by
  have ascii : c.toNat < 128 := by
    rw [isUnreserved, Bool.or_eq_true] at h
    rcases h with h | h
    · have upper : 'Z'.val.toNat = 90 ∧ 'z'.val.toNat = 122 ∧ '9'.val.toNat = 57 := by decide
      have below {d : Char} (le : c.val ≤ d.val) : c.toNat ≤ d.val.toNat := UInt32.le_iff_toNat_le.mp le
      rcases (Bool.or_eq_true _ _).mp (h : (c.isAlpha || c.isDigit) = true) with h | h
      · rcases (Bool.or_eq_true _ _).mp (h : (c.isUpper || c.isLower) = true) with h | h
        · have := below (of_decide_eq_true h).2
          omega
        · have := below (of_decide_eq_true ((Bool.and_eq_true _ _).mp h).2)
          omega
      · have := below (of_decide_eq_true ((Bool.and_eq_true _ _).mp h).2)
        omega
    · have all : ∀ d ∈ "-._~".toList, d.toNat < 128 := List.all_iff_forall_prop.mp (by decide)
      exact all c (List.contains_iff_mem.mp h)
  have all : ∀ n : Fin 128, isUnreserved (Char.ofNat n) = true → 0x20 < (Char.ofNat n).toNat ∧
      Char.ofNat n ∉ ['/', '\\', '?', '#', '%'] ∧ Percent.inPath (Char.ofNat n) = false := by
    decide
  have whole : Char.ofNat c.toNat = c := Char.ofNat_toNat c
  exact whole ▸ all ⟨c.toNat, ascii⟩ (whole.symm ▸ h)

/-! ### Ends of a text -/

theorem exists_trimmed (cs : List Char) :
    ∃ blanks, cs = trimmed cs ++ blanks ∧ ∀ c ∈ blanks, isEdge c = true := by
  refine ⟨(cs.reverse.takeWhile isEdge).reverse, ?_, fun c hc => ?_⟩
  · rw [trimmed, ← List.reverse_append, List.takeWhile_append_dropWhile, List.reverse_reverse]
  · exact List.all_eq_true.mp List.all_takeWhile c (List.mem_reverse.mp hc)

theorem mem_trimmed {cs : List Char} {c : Char} (seen : isEdge c = false) :
    c ∈ trimmed cs ↔ c ∈ cs := by
  obtain ⟨blanks, whole, edges⟩ := exists_trimmed cs
  have blank : c ∉ blanks := fun h => by
    rw [edges c h] at seen
    cases seen
  conv => rhs; rw [whole, List.mem_append, or_iff_left blank]

/-- Nothing is left out behind visible characters. -/
theorem trimmed_append {cs visible : List Char} (some : visible ≠ [])
    (seen : ∀ c ∈ visible, isEdge c = false) : trimmed (cs ++ visible) = cs ++ visible := by
  obtain ⟨c, front, rev⟩ := List.exists_cons_of_ne_nil (show visible.reverse ≠ [] by simpa)
  have solid : isEdge c = false := seen c (List.mem_reverse.mp (rev ▸ List.mem_cons_self))
  rw [trimmed, List.reverse_append, rev, List.cons_append,
    List.dropWhile_cons_of_neg (by simp [solid]), ← List.cons_append, ← rev, ← List.reverse_append,
    List.reverse_reverse]

theorem mem_counted {cs : List Char} {c : Char} (h : isCounted c = true) : c ∈ counted cs ↔ c ∈ cs := by
  rw [counted, List.mem_filter]
  exact and_iff_left h

/-- A step of dots has only characters that are seen. -/
theorem seen_of_dots {step : List Char} (h : isDot step = true ∨ isDoubleDot step = true) :
    ∀ c ∈ step, isEdge c = false := by
  let texts : List String := [".", "%2e", "..", ".%2e", "%2e.", "%2e%2e"]
  have lower : String.ofList (step.map Char.toLower) ∈ texts := by
    rcases h with h | h
    · exact List.mem_append_left ["..", ".%2e", "%2e.", "%2e%2e"] (List.contains_iff_mem.mp h)
    · exact List.mem_append_right [".", "%2e"] (List.contains_iff_mem.mp h)
  have all : ∀ s ∈ texts, s.toList.all (isEdge · = false) = true := by decide
  have seen : ∀ s ∈ texts, ∀ c ∈ s.toList, isEdge c = false := fun s hs =>
    List.all_iff_forall_prop.mp (all s hs)
  intro c hc
  have small := seen _ lower c.toLower (by
    rw [String.toList_ofList]
    exact List.mem_map_of_mem hc)
  by_cases edge : c.toNat ≤ 0x20
  · have same : c.toLower = c := dif_neg fun upper => by
      have above := UInt32.le_iff_toNat_le.mp upper.1
      have : 'A'.val.toNat = 65 ∧ c.toNat = c.val.toNat := ⟨rfl, rfl⟩
      omega
    rwa [same] at small
  · exact decide_eq_false edge

/-! ### Slashes -/

theorem slashed_append (a b : List Char) : slashed (a ++ b) = slashed a ++ slashed b := List.map_append

theorem slashed_of_plain {cs : List Char} (h : '\\' ∉ cs) : slashed cs = cs := by
  refine (List.map_congr_left fun c hc => ?_).trans (List.map_id cs)
  refine if_neg ?_
  rintro rfl
  exact h hc

/-! ### Arrivals -/

theorem wander_concat (walked ss : List (List Char)) (step : List Char) :
    wander walked (ss ++ [step]) = wander (wander walked ss) [step] := List.foldl_append

/-- Steps that go on are walked as they are. -/
theorem wander_of_plain {walked ss : List (List Char)}
    (goes : ∀ s ∈ ss, isDoubleDot s = false ∧ isDot s = false) :
    wander walked ss = ss.reverse ++ walked := by
  induction ss generalizing walked with
  | nil => rfl
  | cons s ss ih =>
    obtain ⟨⟨forth, on⟩, goes⟩ := List.forall_mem_cons.mp goes
    have step : wander walked (s :: ss) = wander (s :: walked) ss := by
      show wander (if isDoubleDot s then _ else if isDot s then _ else _) ss = _
      rw [if_neg (by simp [forth]), if_neg (by simp [on])]
    rw [step, ih goes, List.reverse_cons, List.append_assoc]
    rfl

theorem forall_wander {P : List Char → Prop} {walked ss : List (List Char)} (known : ∀ s ∈ walked, P s)
    (more : ∀ s ∈ ss, P s) : ∀ s ∈ wander walked ss, P s := by
  induction ss generalizing walked with
  | nil => exact known
  | cons s ss ih =>
    refine ih ?_ fun t ht => more t (List.mem_cons_of_mem _ ht)
    show ∀ t ∈ (if isDoubleDot s then walked.drop 1 else if isDot s then walked else s :: walked), P t
    split
    · exact fun t ht => known t (List.mem_of_mem_drop ht)
    · split
      · exact known
      · exact List.forall_mem_cons.mpr ⟨more s List.mem_cons_self, known⟩

/-- A walk comes to its steps and to nothing else. -/
theorem forall_walk {P : List Char → Prop} (empty : P []) {ss : List (List Char)} (some : ss ≠ [])
    (all : ∀ s ∈ ss, P s) : ∀ s ∈ walk [] ss, P s := by
  obtain ⟨front, last, rfl⟩ := (List.eq_nil_or_concat ss).resolve_left some
  rw [List.concat_eq_append] at all ⊢
  have before : ∀ s ∈ wander [] front, P s :=
    forall_wander (List.forall_mem_nil P) fun s hs => all s (List.mem_append_left _ hs)
  have last : P last := all last (List.mem_append_right _ List.mem_cons_self)
  rw [walk_concat]
  intro s hs
  have hs := List.mem_reverse.mp hs
  rw [arrive] at hs
  split at hs
  · exact (List.mem_cons.mp hs).elim (· ▸ empty) fun hs => before s (List.mem_of_mem_drop hs)
  · split at hs
    · exact (List.mem_cons.mp hs).elim (· ▸ empty) (before s)
    · exact (List.mem_cons.mp hs).elim (· ▸ last) (before s)

/-- If a walk comes to the same place with and without blanks behind its last step, there are none, and
the step goes on. -/
theorem arrivals_agree {W way : List (List Char)} {last blanks step : List Char} (some : way ≠ [])
    (edges : ∀ c ∈ blanks, isEdge c = true)
    (alone : (arrive W last).map (Percent.encode Percent.inPath) = step :: way)
    (passed : (wander W [last ++ blanks]).map (Percent.encode Percent.inPath) = step :: way) :
    blanks = [] ∧ isDot last = false ∧ isDoubleDot last = false ∧
      W.map (Percent.encode Percent.inPath) = way := by
  have unblanked (dots : isDot (last ++ blanks) = true ∨ isDoubleDot (last ++ blanks) = true) :
      blanks = [] := by
    refine List.eq_nil_iff_forall_not_mem.mpr fun c hc => ?_
    have seen := seen_of_dots dots c (List.mem_append_right _ hc)
    rw [edges c hc] at seen
    cases seen
  have passes : wander W [last ++ blanks] = if isDoubleDot (last ++ blanks) then W.drop 1
      else if isDot (last ++ blanks) then W else (last ++ blanks) :: W := rfl
  rw [passes] at passed
  rw [arrive] at alone
  -- with the blanks, a step back or one that stays would leave too short a way
  by_cases back : isDoubleDot (last ++ blanks) = true
  · obtain rfl := unblanked (.inr back)
    rw [List.append_nil] at back passed
    rw [if_pos back] at alone passed
    have := congrArg List.length (passed.trans alone.symm)
    simp at this
  rw [if_neg back] at passed
  by_cases stays : isDot (last ++ blanks) = true
  · obtain rfl := unblanked (.inl stays)
    rw [List.append_nil] at back stays passed
    rw [if_neg back, if_pos stays] at alone
    rw [if_pos stays] at passed
    have := congrArg List.length (passed.trans alone.symm)
    simp at this
  rw [if_neg stays, List.map_cons, List.cons.injEq] at passed
  obtain ⟨here, before⟩ := passed
  -- without them, a step back would too, and one that stays would leave an empty step
  by_cases back' : isDoubleDot last = true
  · rw [if_pos back', List.map_cons, List.cons.injEq, ← before, List.map_drop] at alone
    have short := congrArg List.length alone.2
    rw [List.length_drop, before] at short
    exact absurd (List.eq_nil_of_length_eq_zero (by omega)) some
  rw [if_neg back'] at alone
  by_cases stays' : isDot last = true
  · rw [if_pos stays', List.map_cons, List.cons.injEq, ← here] at alone
    have empty := Percent.eq_nil_of_encode alone.1.symm
    rw [(List.append_eq_nil_iff.mp empty).1] at stays'
    exact absurd stays' (by decide)
  rw [if_neg stays', List.map_cons, List.cons.injEq, ← here, Percent.encode_append] at alone
  have none := List.self_eq_append_right.mp alone.1
  exact ⟨Percent.eq_nil_of_encode none, Bool.eq_false_iff.mpr stays', Bool.eq_false_iff.mpr back',
    before⟩

end Url

end Lightshow.Web
