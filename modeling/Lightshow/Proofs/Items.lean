/-
Texts of lists and objects.

`Items` is what stands between the brackets of a list: items with commas between them and gaps
around them.  It says nothing of what the items are, nor of what may stand in a gap, so that the
fields of an object and the entries of a script are of the same kind.  For the lists that the
reader takes, the gaps are blanks.

* `Items.of_reads`, `Items.reads` -- a list is read from exactly the texts of its items;
* `Items.taken_append` -- behind a text of items, the list is read on as if it began there;
* `Items.of_reads_fields`, `Items.reads_fields` -- the same for the fields of an object.
-/
import Lightshow.Proofs.Leaves

namespace Lightshow.Json

/-! ### Blanks -/

/-- Nothing but blanks. -/
def Blank (g : List Char) : Prop := ∀ c ∈ g, isBlank c = true

instance (g : List Char) : Decidable (Blank g) := List.decidableBAll _ g

theorem Blank.nil : Blank [] := nofun

theorem Blank.append {g h : List Char} (hg : Blank g) (hh : Blank h) : Blank (g ++ h) := by
  intro c hc
  exact (List.mem_append.mp hc).elim (hg c) (hh c)

theorem Blank.no_comma {g : List Char} (h : Blank g) : ',' ∉ g := fun comma =>
  absurd (h ',' comma) nofun

theorem skipBlanks_append {g : List Char} (h : Blank g) (cs : List Char) :
    skipBlanks (g ++ cs) = skipBlanks cs :=
  List.dropWhile_append_of_pos h

theorem exists_blank (cs : List Char) : ∃ g, Blank g ∧ cs = g ++ skipBlanks cs :=
  ⟨cs.takeWhile isBlank, fun _ hc => List.mem_takeWhile_imp hc,
    List.takeWhile_append_dropWhile.symm⟩

theorem skipBlanks_of_blank {g : List Char} (h : Blank g) : skipBlanks g = [] := by
  rw [← List.append_nil g, skipBlanks_append h]
  rfl

theorem blank_of_skipBlanks {cs : List Char} (h : skipBlanks cs = []) : Blank cs := by
  obtain ⟨g, blank, hg⟩ := exists_blank cs
  rw [hg, h, List.append_nil]
  exact blank

/-! ### Items between commas -/

/-- Text of items with commas between them, and with gaps around them and around the commas.  The
flag says that no item stands in front. -/
inductive Items {α : Type} (gap : List Char → Prop) (spelled : List Char → α → Prop) :
    Bool → List Char → List α → Prop
  | nil {first : Bool} {g : List Char} : gap g → Items gap spelled first g []
  | first {g u t : List Char} {a : α} {as : List α} : gap g → spelled u a →
      Items gap spelled false t as → Items gap spelled true (g ++ (u ++ t)) (a :: as)
  | next {g h u t : List Char} {a : α} {as : List α} : gap g → gap h → spelled u a →
      Items gap spelled false t as →
      Items gap spelled false (g ++ ',' :: (h ++ (u ++ t))) (a :: as)

/-- A text of an item: behind blanks and in front of whatever ends a number, the item is read from
it. -/
structure Spelling {α : Type} (item : (cs : List Char) → Except Stop (α × Shorter cs))
    (u : List Char) (a : α) : Prop where
  begins : ∃ c v, u = c :: v ∧ isBlank c = false ∧ c ≠ ']'
  reads : ∀ g rest, Blank g → EndsNumber rest → Reads item (g ++ (u ++ rest)) a rest

section

variable {α β : Type} {item : (cs : List Char) → Except Stop (α × Shorter cs)}
  {spelled : List Char → α → Prop}

/-- The text that a reader leaves. -/
def left? {p : List Char → Prop} (r : Except Stop { rest : List Char // p rest }) :
    Option (List Char) := r.toOption.map (·.1)

/-- Whether there is more, and the text that it begins with. -/
def more? {p : List Char → Prop} (r : Except Stop (Option { rest : List Char // p rest })) :
    Option (Option (List Char)) := r.toOption.map (·.map (·.1))

theorem more_nextItem_nil {cs : List Char} (h : skipBlanks cs = []) (first : Bool) :
    more? (nextItem? first cs) = none := by
  rw [nextItem?]
  split
  case h_1 => rfl
  case h_2 h' => cases h.symm.trans h'

theorem more_nextItem {cs rest : List Char} {c : Char} (h : skipBlanks cs = c :: rest)
    (first : Bool) :
    more? (nextItem? first cs) =
      if c = ']' then some none
      else if first then some (some (c :: rest))
      else if c = ',' then
        (skipBlanks rest).head?.bind fun d => if d = ']' then none else some (some (skipBlanks rest))
      else none := by
  rw [nextItem?]
  split
  case h_1 h' => cases h.symm.trans h'
  case h_2 h' =>
    obtain ⟨rfl, rfl⟩ := List.cons.inj (h.symm.trans h')
    dsimp only
    split_ifs
    · rfl
    · rfl
    · split
      case h_1 stops =>
        rw [stops]
        rfl
      case h_2 d more goes =>
        have next : (skipBlanks rest).head?.bind (fun d => if d = ']' then none else
            some (some (skipBlanks rest))) = if d = ']' then none else some (some (d :: more)) := by
          rw [goes]
          rfl
        rw [next]
        split_ifs <;> rfl
    · rfl

/-- A list ends at what closes it. -/
theorem end_of_nextItem {first : Bool} {cs : List Char} (h : more? (nextItem? first cs) = some none) :
    ∃ r, skipBlanks cs = ']' :: r := by
  rcases hcs : skipBlanks cs with _ | ⟨c, rest⟩
  · rw [more_nextItem_nil hcs] at h
    cases h
  rw [more_nextItem hcs] at h
  split_ifs at h with close
  · exact ⟨rest, by rw [close]⟩
  · cases h
  · obtain ⟨d, -, h⟩ := Option.bind_eq_some_iff.mp h
    split_ifs at h
    cases h

/-- An item begins behind blanks, and but for the first one behind a comma. -/
theorem start_of_nextItem {first : Bool} {cs start : List Char}
    (h : more? (nextItem? first cs) = some (some start)) :
    ∃ g, Blank g ∧ (first = true ∧ cs = g ++ start ∨
      first = false ∧ ∃ g', Blank g' ∧ cs = g ++ ',' :: (g' ++ start)) := by
  obtain ⟨g, blank, hg⟩ := exists_blank cs
  refine ⟨g, blank, ?_⟩
  rcases hcs : skipBlanks cs with _ | ⟨c, rest⟩
  · rw [more_nextItem_nil hcs] at h
    cases h
  rw [more_nextItem hcs] at h
  rw [hcs] at hg
  cases first with
  | true =>
    rw [if_pos rfl] at h
    split_ifs at h
    · cases h
    · obtain rfl := Option.some.inj (Option.some.inj h)
      exact .inl ⟨rfl, hg⟩
  | false =>
    rw [if_neg Bool.false_ne_true] at h
    split_ifs at h with close comma
    · cases h
    · obtain ⟨d, -, h⟩ := Option.bind_eq_some_iff.mp h
      split_ifs at h
      obtain rfl := Option.some.inj (Option.some.inj h)
      obtain ⟨g', blank', hg'⟩ := exists_blank rest
      exact .inr ⟨rfl, g', blank', by rw [← hg', ← comma, hg]⟩

theorem taken_readItems (first : Bool) (cs : List Char) :
    taken? (readItems item first cs) = (more? (nextItem? first cs)).bind fun
      | none => some ([], skipBlanks cs)
      | some start => (taken? (item start)).bind fun r =>
        (taken? (readItems item false r.2)).map fun s => (r.1 :: s.1, s.2) := by
  rw [readItems.eq_def]
  rcases nextItem? first cs with _ | _ | ⟨start, _⟩
  · rfl
  · rfl
  · simp only [more?, Except.toOption, Option.map_some, Option.bind_some]
    rcases item start with _ | ⟨a, after, _⟩
    · rfl
    · simp only [taken?, Option.bind_some]
      cases readItems item false after <;> rfl

/-- A blank ends a number, whatever follows it. -/
theorem EndsNumber.of_blank {c : Char} (h : isBlank c = true) (rest : List Char) :
    EndsNumber (c :: rest) := by
  intro d hd
  obtain rfl := Option.some.inj hd
  simp only [isBlank, Bool.or_eq_true, decide_eq_true_eq] at h
  rcases h with ((rfl | rfl) | rfl) | rfl <;> decide

theorem EndsNumber.blank {g rest : List Char} (blank : Blank g) (h : EndsNumber rest) :
    EndsNumber (g ++ rest) := by
  rcases g with _ | ⟨c, g⟩
  · exact h
  · exact .of_blank (blank c List.mem_cons_self) _

/-- What stands behind an item and blanks is a comma or what closes the list. -/
theorem stop_of_readItems {cs last : List Char} {as : List α}
    (h : Reads (readItems item false) cs as last) :
    ∃ g c rest, cs = g ++ c :: rest ∧ Blank g ∧ (c = ',' ∨ c = ']') := by
  rw [Reads, taken_readItems, Option.bind_eq_some_iff] at h
  obtain ⟨_ | start, next, -⟩ := h
  · obtain ⟨g, blank, hg⟩ := exists_blank cs
    obtain ⟨r, hr⟩ := end_of_nextItem next
    exact ⟨g, ']', r, hr ▸ hg, blank, .inr rfl⟩
  · obtain ⟨g, blank, ⟨other, -⟩ | ⟨-, g', -, hg⟩⟩ := start_of_nextItem next
    · cases other
    · exact ⟨g, ',', _, hg, blank, .inl rfl⟩

/-- The items of a list are read from a text of items, up to what closes the list. -/
theorem Items.of_reads (sound : ∀ {cs rest : List Char} {a : α}, Reads item cs a rest →
      ∃ g u, cs = g ++ (u ++ rest) ∧ Blank g ∧ spelled u a)
    {first : Bool} {cs last : List Char} {as : List α} (h : Reads (readItems item first) cs as last) :
    ∃ t r, cs = t ++ last ∧ last = ']' :: r ∧ Items Blank spelled first t as := by
  -- what is left behind an item is shorter
  induction hn : cs.length using Nat.strongRecOn generalizing first cs as last with
  | ind n ih =>
    subst hn
    rw [Reads, taken_readItems, Option.bind_eq_some_iff] at h
    obtain ⟨_ | start, next, h⟩ := h
    · obtain ⟨g, blank, hg⟩ := exists_blank cs
      obtain ⟨r, hr⟩ := end_of_nextItem next
      obtain ⟨rfl, rfl⟩ := Prod.mk.inj (Option.some.inj h)
      exact ⟨g, r, hg, hr, .nil blank⟩
    obtain ⟨⟨a, after⟩, ha, h⟩ := Option.bind_eq_some_iff.mp h
    obtain ⟨⟨bs, final⟩, hbs, same⟩ := Option.map_eq_some_iff.mp h
    obtain ⟨rfl, rfl⟩ := Prod.mk.inj same
    obtain ⟨shorter, -⟩ := reads_iff.mp ha
    obtain ⟨k, u, rfl, blank, spelled⟩ := sound ha
    obtain ⟨g, blank', ⟨rfl, rfl⟩ | ⟨rfl, l, blank'', rfl⟩⟩ := start_of_nextItem next
    · obtain ⟨t, r, rfl, hr, others⟩ :=
        ih after.length (by simp only [List.length_append] at shorter ⊢; omega) hbs rfl
      exact ⟨(g ++ k) ++ (u ++ t), r, by simp, hr, .first (blank'.append blank) spelled others⟩
    · obtain ⟨t, r, rfl, hr, others⟩ := ih after.length
        (by simp only [List.length_append, List.length_cons] at shorter ⊢; omega) hbs rfl
      exact ⟨g ++ ',' :: ((l ++ k) ++ (u ++ t)), r, by simp, hr,
        .next blank' (blank''.append blank) spelled others⟩

theorem taken_readItems_blank {g : List Char} (blank : Blank g) (first : Bool) (cs : List Char) :
    taken? (readItems item first (g ++ cs)) = taken? (readItems item first cs) := by
  have same : more? (nextItem? first (g ++ cs)) = more? (nextItem? first cs) := by
    rcases hcs : skipBlanks cs with _ | ⟨c, rest⟩
    · rw [more_nextItem_nil hcs, more_nextItem_nil ((skipBlanks_append blank cs).trans hcs)]
    · rw [more_nextItem hcs, more_nextItem ((skipBlanks_append blank cs).trans hcs)]
  rw [taken_readItems, taken_readItems, same, skipBlanks_append blank]

theorem taken_readItems_item {c : Char} (solid : isBlank c = false) (bracket : c ≠ ']')
    (cs : List Char) :
    taken? (readItems item true (c :: cs)) = (taken? (item (c :: cs))).bind fun r =>
      (taken? (readItems item false r.2)).map fun s => (r.1 :: s.1, s.2) := by
  rw [taken_readItems, more_nextItem (skipBlanks_cons solid cs), if_neg bracket, if_pos rfl,
    Option.bind_some]

/-- Behind a comma, a list is read as if it began there. -/
theorem taken_readItems_comma {g : List Char} (blank : Blank g) {c : Char} (solid : isBlank c = false)
    (bracket : c ≠ ']') (cs : List Char) :
    taken? (readItems item false (',' :: (g ++ c :: cs))) =
      taken? (readItems item true (c :: cs)) := by
  have start : skipBlanks (g ++ c :: cs) = c :: cs :=
    (skipBlanks_append blank _).trans (skipBlanks_cons solid _)
  rw [taken_readItems_item solid bracket, taken_readItems, more_nextItem (skipBlanks_cons rfl _),
    if_neg (by decide), if_neg (by decide), if_pos rfl, start, List.head?_cons, Option.bind_some,
    if_neg bracket, Option.bind_some]

/-- Nothing is read behind an item without a comma. -/
theorem taken_readItems_missing {g : List Char} (blank : Blank g) {c : Char}
    (solid : isBlank c = false) (comma : c ≠ ',') (bracket : c ≠ ']') (cs : List Char) :
    taken? (readItems item false (g ++ c :: cs)) = none := by
  rw [taken_readItems_blank blank, taken_readItems, more_nextItem (skipBlanks_cons solid cs),
    if_neg bracket, if_neg (by decide), if_neg comma]
  rfl

theorem taken_readItems_first {u : List Char} {a : α} (h : Spelling item u a) {more : List Char}
    (ends : EndsNumber more) :
    taken? (readItems item true (u ++ more)) =
      (taken? (readItems item false more)).map fun s => (a :: s.1, s.2) := by
  obtain ⟨c, v, rfl, solid, bracket⟩ := h.begins
  have read : taken? (item (c :: v ++ more)) = some (a, more) := h.reads [] more .nil ends
  rw [List.cons_append] at read ⊢
  rw [taken_readItems_item solid bracket, read, Option.bind_some]

theorem taken_readItems_next {u g : List Char} {a : α} (blank : Blank g) (h : Spelling item u a)
    {more : List Char} (ends : EndsNumber more) :
    taken? (readItems item false (',' :: (g ++ (u ++ more)))) =
      (taken? (readItems item false more)).map fun s => (a :: s.1, s.2) := by
  rw [← taken_readItems_first h ends]
  obtain ⟨c, v, rfl, solid, bracket⟩ := h.begins
  exact taken_readItems_comma blank solid bracket (v ++ more)

/-- What may come behind an item ends a number. -/
theorem Items.endsNumber {t : List Char} {as : List α} (h : Items Blank spelled false t as)
    {more : List Char} (ends : EndsNumber more) : EndsNumber (t ++ more) := by
  cases h with
  | nil blank => exact .blank blank ends
  | next blank =>
    rw [List.append_assoc, List.cons_append]
    exact .blank blank fun d hd => Option.some.inj hd ▸ by decide

/-- Behind a text of items, a list is read on as if it began there. -/
theorem Items.taken_append (complete : ∀ {u : List Char} {a : α}, spelled u a → Spelling item u a)
    {first : Bool} {t : List Char} {as : List α} (h : Items Blank spelled first t as)
    {more : List Char} (ends : EndsNumber more) :
    taken? (readItems item first (t ++ more)) =
      (taken? (readItems item (first && as.isEmpty) more)).map fun s => (as ++ s.1, s.2) := by
  induction h with
  | @nil first g blank =>
    rw [taken_readItems_blank blank, List.isEmpty_nil, Bool.and_true]
    exact Option.map_id'.symm
  | first blank spelled others ih =>
    rw [List.append_assoc, List.append_assoc, taken_readItems_blank blank,
      taken_readItems_first (complete spelled) (others.endsNumber ends), ih, Option.map_map]
    rfl
  | next blank blank' spelled others ih =>
    rw [List.append_assoc, List.cons_append, List.append_assoc, List.append_assoc,
      taken_readItems_blank blank,
      taken_readItems_next blank' (complete spelled) (others.endsNumber ends), ih, Option.map_map]
    rfl

theorem Items.append_blank {first : Bool} {t g : List Char} {as : List α}
    (h : Items Blank spelled first t as) (blank : Blank g) : Items Blank spelled first (t ++ g) as := by
  induction h with
  | nil blank' => exact .nil (blank'.append blank)
  | first blank' spelled _ ih =>
    rw [List.append_assoc, List.append_assoc]
    exact .first blank' spelled ih
  | next blank' blank'' spelled _ ih =>
    rw [List.append_assoc, List.cons_append, List.append_assoc, List.append_assoc]
    exact .next blank' blank'' spelled ih

theorem taken_readItems_close (first : Bool) (r : List Char) :
    taken? (readItems item first (']' :: r)) = some ([], ']' :: r) := by
  rw [taken_readItems, more_nextItem (skipBlanks_cons rfl r), if_pos rfl, Option.bind_some]
  rfl

theorem Items.reads (complete : ∀ {u : List Char} {a : α}, spelled u a → Spelling item u a)
    {first : Bool} {t : List Char} {as : List α} (h : Items Blank spelled first t as) (r : List Char) :
    Reads (readItems item first) (t ++ ']' :: r) as (']' :: r) := by
  have ends : EndsNumber (']' :: r) := fun d hd => Option.some.inj hd ▸ by decide
  rw [Reads, h.taken_append complete ends, taken_readItems_close, Option.map_some, List.append_nil]

/-! ### The last item -/

/-- Text of items up to the next one: blanks, or items with a comma behind the last. -/
inductive Front (gap : List Char → Prop) (spelled : List Char → α → Prop) :
    List Char → List α → Prop
  | nil {g : List Char} : gap g → Front gap spelled g []
  | comma {t h : List Char} {as : List α} : as ≠ [] → Items gap spelled true t as → gap h →
      Front gap spelled (t ++ ',' :: h) as

variable {gap : List Char → Prop}

theorem Items.gap_of_nil {first : Bool} {t : List Char} (items : Items gap spelled first t []) :
    gap t := by
  cases items with
  | nil gt => exact gt

theorem Items.imp {spelled' : List Char → α → Prop}
    (more : ∀ {u : List Char} {a : α}, spelled u a → spelled' u a) {first : Bool} {t : List Char}
    {as : List α} (items : Items gap spelled first t as) : Items gap spelled' first t as := by
  induction items with
  | nil gt => exact .nil gt
  | first gg spells _ ih => exact .first gg (more spells) ih
  | next gg gh spells _ ih => exact .next gg gh (more spells) ih

/-- Each item has a text. -/
theorem Items.exists_text {first : Bool} {t : List Char} {as : List α}
    (items : Items gap spelled first t as) : ∀ a ∈ as, ∃ u, spelled u a := by
  induction items with
  | nil => exact List.forall_mem_nil _
  | first _ spells _ ih => exact List.forall_mem_cons.mpr ⟨⟨_, spells⟩, ih⟩
  | next _ _ spells _ ih => exact List.forall_mem_cons.mpr ⟨⟨_, spells⟩, ih⟩

/-- Another item behind a text of items, and others behind it. -/
theorem Items.append_next {first : Bool} {t h u r : List Char} {as bs : List α} {v : α}
    (items : Items gap spelled first t as) (behind : first = true → as ≠ []) (gh : gap h)
    (spells : spelled u v) (others : Items gap spelled false r bs) :
    Items gap spelled first (t ++ ',' :: (h ++ (u ++ r))) (as ++ v :: bs) := by
  induction items with
  | @nil first k gk =>
    cases first with
    | true => exact absurd rfl (behind rfl)
    | false => exact .next gk gh spells others
  | first gk spells' _ ih =>
    rw [List.append_assoc, List.append_assoc]
    exact .first gk spells' (ih nofun)
  | next gk gl spells' _ ih =>
    rw [List.append_assoc, List.cons_append, List.append_assoc, List.append_assoc]
    exact .next gk gl spells' (ih nofun)

theorem Front.items {t u g : List Char} {as : List α} {v : α} (front : Front gap spelled t as)
    (spells : spelled u v) (gg : gap g) : Items gap spelled true (t ++ (u ++ g)) (as ++ [v]) := by
  cases front with
  | nil gk => exact .first gk spells (.nil gg)
  | comma some_as items gh =>
    rw [List.append_assoc, List.cons_append]
    exact items.append_next (fun _ => some_as) gh spells (.nil gg)

theorem Front.gap_of_nil {t : List Char} (front : Front gap spelled t ([] : List α)) : gap t := by
  cases front with
  | nil gt => exact gt
  | comma some_as => exact absurd rfl some_as

/-- Behind such a text, the next item is read as if the list began with it. -/
theorem Front.taken (complete : ∀ {u : List Char} {a : α}, spelled u a → Spelling item u a)
    {t : List Char} {as : List α} (front : Front Blank spelled t as) {c : Char}
    (solid : isBlank c = false) (bracket : c ≠ ']') (cs : List Char) :
    taken? (readItems item true (t ++ c :: cs)) =
      (taken? (readItems item true (c :: cs))).map fun s => (as ++ s.1, s.2) := by
  cases front with
  | nil blank =>
    rw [taken_readItems_blank blank]
    exact Option.map_id'.symm
  | @comma t g as some_as items blank =>
    have ends : EndsNumber (',' :: (g ++ c :: cs)) := fun d hd => Option.some.inj hd ▸ by decide
    have others : (true && as.isEmpty) = false := by simpa using some_as
    rw [List.append_assoc, List.cons_append, items.taken_append complete ends, others,
      taken_readItems_comma blank solid bracket]

/-- Behind a comma, a text of items ends with its last item. -/
theorem Items.split_others {t : List Char} {as : List α} (items : Items gap spelled false t as) :
    as = [] ∧ gap t ∨ ∃ bs v k h u g, as = bs ++ [v] ∧ t = k ++ ',' :: (h ++ (u ++ g)) ∧
      Items gap spelled false k bs ∧ gap h ∧ spelled u v ∧ gap g := by
  generalize other : false = first at items
  induction items with
  | nil gt => exact .inl ⟨rfl, gt⟩
  | first => cases other
  | @next g h u t a as gg gh spells others ih =>
    refine .inr ?_
    rcases ih rfl with ⟨rfl, gt⟩ | ⟨bs, v, k, h', u', g', rfl, rfl, front, gh', spells', gg'⟩
    · exact ⟨[], a, g, h, u, t, rfl, rfl, .nil gg, gh, spells, gt⟩
    · exact ⟨a :: bs, v, g ++ ',' :: (h ++ (u ++ k)), h', u', g', rfl, by simp,
        .next gg gh spells front, gh', spells', gg'⟩

/-- A text of items ends with its last item and a gap. -/
theorem Items.split_last {t : List Char} {as : List α} (items : Items gap spelled true t as)
    (some_as : as ≠ []) : ∃ bs v k u g, as = bs ++ [v] ∧ t = k ++ (u ++ g) ∧
      Front gap spelled k bs ∧ spelled u v ∧ gap g := by
  cases items with
  | nil => exact absurd rfl some_as
  | @first g u t a as gg spells others =>
    rcases others.split_others with
      ⟨rfl, gt⟩ | ⟨bs, v, k, h', u', g', rfl, rfl, front, gh', spells', gg'⟩
    · exact ⟨[], a, g, u, t, rfl, rfl, .nil gg, spells, gt⟩
    · exact ⟨a :: bs, v, (g ++ (u ++ k)) ++ ',' :: h', u', g', rfl, by simp,
        .comma nofun (.first gg spells front) gh', spells', gg'⟩

theorem Items.split_concat {t : List Char} {as : List α} {v : α}
    (items : Items gap spelled true t (as ++ [v])) :
    ∃ k u g, t = k ++ (u ++ g) ∧ Front gap spelled k as ∧ spelled u v ∧ gap g := by
  obtain ⟨bs, w, k, u, g, same, whole, front, spells, gg⟩ := items.split_last (by simp)
  obtain ⟨rfl, last⟩ := List.append_inj' same rfl
  obtain rfl := (List.cons.inj last).1
  exact ⟨k, u, g, whole, front, spells, gg⟩

/-- The last blank of a text of items stands behind the last item. -/
theorem Items.of_append_blank {c : Char} {t : List Char} {as : List α}
    (items : Items Blank spelled true (t ++ [c]) as) (blank : isBlank c = true)
    (ends : ∀ {u : List Char} {a : α}, spelled u a → ∃ v d, u = v ++ [d] ∧ isBlank d = false) :
    Items Blank spelled true t as := by
  by_cases none : as = []
  · subst none
    exact .nil fun d hd => items.gap_of_nil d (List.mem_append_left _ hd)
  · obtain ⟨bs, v, k, u, g, rfl, same, front, spells, blank'⟩ := items.split_last none
    rcases List.eq_nil_or_concat g with rfl | ⟨g, d, rfl⟩
    · obtain ⟨w, d, rfl, solid⟩ := ends spells
      rw [List.append_nil, ← List.append_assoc] at same
      obtain ⟨-, same⟩ := List.append_inj' same rfl
      obtain rfl := (List.cons.inj same).1
      exact absurd (blank.symm.trans solid) nofun
    · rw [List.concat_eq_append, ← List.append_assoc, ← List.append_assoc] at same
      obtain ⟨rfl, -⟩ := List.append_inj' same rfl
      rw [List.append_assoc]
      exact front.items spells fun d hd => blank' d (by simp [hd])

/-! ### Fields -/

/-- Text of a field: its name, a colon, and its value. -/
inductive FieldText (spelled : List Char → α → Prop) : List Char → String × α → Prop
  | mk {k ds g h u : List Char} {a : α} : Quotes k ds → Blank g → Blank h → spelled u a →
      FieldText spelled ('"' :: (k ++ '"' :: (g ++ ':' :: (h ++ u)))) (String.ofList ds, a)

theorem more_nextField_nil {cs : List Char} (h : skipBlanks cs = []) (first : Bool) :
    more? (nextField? first cs) = none := by
  rw [nextField?]
  split
  case h_1 => rfl
  case h_2 h' => cases h.symm.trans h'

theorem more_nextField {cs rest : List Char} {c : Char} (h : skipBlanks cs = c :: rest)
    (first : Bool) :
    more? (nextField? first cs) =
      if c = '\x7d' then some none
      else if first then if c = '"' then some (some rest) else none
      else if c = ',' then
        (skipBlanks rest).head?.bind fun d =>
          if d = '"' then some (some ((skipBlanks rest).drop 1)) else none
      else none := by
  rw [nextField?]
  split
  case h_1 h' => cases h.symm.trans h'
  case h_2 h' =>
    obtain ⟨rfl, rfl⟩ := List.cons.inj (h.symm.trans h')
    dsimp only
    split_ifs
    · rfl
    · rfl
    · rfl
    · split
      case h_1 stops =>
        rw [stops]
        rfl
      case h_2 d more goes =>
        have next : (skipBlanks rest).head?.bind (fun d => if d = '"' then
            some (some ((skipBlanks rest).drop 1)) else none) =
              if d = '"' then some (some more) else none := by
          rw [goes]
          rfl
        rw [next]
        split_ifs <;> rfl
    · rfl

theorem more_nextField_close {g : List Char} (blank : Blank g) (first : Bool) (r : List Char) :
    more? (nextField? first (g ++ '\x7d' :: r)) = some none := by
  have close : skipBlanks (g ++ '\x7d' :: r) = '\x7d' :: r :=
    (skipBlanks_append blank _).trans (skipBlanks_cons rfl r)
  rw [more_nextField close, if_pos rfl]

theorem more_nextField_first {g : List Char} (blank : Blank g) (cs : List Char) :
    more? (nextField? true (g ++ '"' :: cs)) = some (some cs) := by
  have quote : skipBlanks (g ++ '"' :: cs) = '"' :: cs :=
    (skipBlanks_append blank _).trans (skipBlanks_cons rfl cs)
  rw [more_nextField quote, if_neg (by decide), if_pos rfl, if_pos rfl]

theorem more_nextField_next {g h : List Char} (blank : Blank g) (blank' : Blank h) (cs : List Char) :
    more? (nextField? false (g ++ ',' :: (h ++ '"' :: cs))) = some (some cs) := by
  have comma : skipBlanks (g ++ ',' :: (h ++ '"' :: cs)) = ',' :: (h ++ '"' :: cs) :=
    (skipBlanks_append blank _).trans (skipBlanks_cons rfl _)
  have quote : skipBlanks (h ++ '"' :: cs) = '"' :: cs :=
    (skipBlanks_append blank' _).trans (skipBlanks_cons rfl cs)
  rw [more_nextField comma, if_neg (by decide), if_neg Bool.false_ne_true, if_pos rfl, quote]
  rfl

/-- An object ends at what closes it. -/
theorem end_of_nextField {first : Bool} {cs : List Char}
    (h : more? (nextField? first cs) = some none) : ∃ r, skipBlanks cs = '\x7d' :: r := by
  rcases hcs : skipBlanks cs with _ | ⟨c, rest⟩
  · rw [more_nextField_nil hcs] at h
    cases h
  rw [more_nextField hcs] at h
  split_ifs at h with close
  · exact ⟨rest, by rw [close]⟩
  · cases h
  · obtain ⟨d, -, h⟩ := Option.bind_eq_some_iff.mp h
    split_ifs at h
    cases h

/-- A field begins with a quote behind blanks, and but for the first one behind a comma. -/
theorem name_of_nextField {first : Bool} {cs name : List Char}
    (h : more? (nextField? first cs) = some (some name)) :
    ∃ g, Blank g ∧ (first = true ∧ cs = g ++ '"' :: name ∨
      first = false ∧ ∃ g', Blank g' ∧ cs = g ++ ',' :: (g' ++ '"' :: name)) := by
  obtain ⟨g, blank, hg⟩ := exists_blank cs
  refine ⟨g, blank, ?_⟩
  rcases hcs : skipBlanks cs with _ | ⟨c, rest⟩
  · rw [more_nextField_nil hcs] at h
    cases h
  rw [more_nextField hcs] at h
  rw [hcs] at hg
  cases first with
  | true =>
    rw [if_pos rfl] at h
    split_ifs at h with close quote
    · cases h
    · obtain rfl := Option.some.inj (Option.some.inj h)
      exact .inl ⟨rfl, quote ▸ hg⟩
  | false =>
    rw [if_neg Bool.false_ne_true] at h
    split_ifs at h with close comma
    · cases h
    · obtain ⟨d, hd, h⟩ := Option.bind_eq_some_iff.mp h
      split_ifs at h with quote
      obtain rfl := Option.some.inj (Option.some.inj h)
      obtain ⟨g', blank', hg'⟩ := exists_blank rest
      obtain ⟨more, hmore⟩ := List.head?_eq_some_iff.mp hd
      refine .inr ⟨rfl, g', blank', ?_⟩
      rw [hmore, List.drop_succ_cons, List.drop_zero, ← quote, ← hmore, ← hg', ← comma, hg]

theorem left_readColon (cs : List Char) :
    left? (readColon cs) = (skipBlanks cs).head?.bind fun c =>
      if c = ':' then some ((skipBlanks cs).drop 1) else none := by
  rw [readColon]
  split
  case h_1 h => rw [h]; rfl
  case h_2 c rest h =>
    have next : (skipBlanks cs).head?.bind (fun c => if c = ':' then
        some ((skipBlanks cs).drop 1) else none) = if c = ':' then some rest else none := by
      rw [h]
      rfl
    rw [next]
    split_ifs <;> rfl

theorem left_readColon_blank {g : List Char} (blank : Blank g) (cs : List Char) :
    left? (readColon (g ++ ':' :: cs)) = some cs := by
  rw [left_readColon, skipBlanks_append blank, skipBlanks_cons rfl]
  rfl

/-- The value of a field begins behind a colon. -/
theorem colon_of_readColon {cs start : List Char} (h : left? (readColon cs) = some start) :
    ∃ g, Blank g ∧ cs = g ++ ':' :: start := by
  obtain ⟨g, blank, hg⟩ := exists_blank cs
  rw [left_readColon, Option.bind_eq_some_iff] at h
  obtain ⟨c, hc, h⟩ := h
  split_ifs at h with colon
  obtain ⟨rest, hrest⟩ := List.head?_eq_some_iff.mp hc
  rw [hrest, List.drop_succ_cons, List.drop_zero] at h
  exact ⟨g, blank, by rw [← Option.some.inj h, ← colon, ← hrest, ← hg]⟩

theorem taken_readFields (first : Bool) (cs : List Char) :
    taken? (readFields item first cs) = (more? (nextField? first cs)).bind fun
      | none => some ([], skipBlanks cs)
      | some name => (taken? (readString name)).bind fun k =>
        (left? (readColon k.2)).bind fun start => (taken? (item start)).bind fun r =>
          (taken? (readFields item false r.2)).map fun s =>
            ((String.ofList k.1, r.1) :: s.1, s.2) := by
  rw [readFields.eq_def]
  rcases nextField? first cs with _ | _ | ⟨name, _⟩
  · rfl
  · rfl
  simp only [more?, Except.toOption, Option.map_some, Option.bind_some]
  rcases readString name with _ | ⟨key, colon, _⟩
  · rfl
  show _ = (left? (readColon colon)).bind _
  dsimp only
  rcases readColon colon with _ | ⟨start, _⟩
  · rfl
  simp only [left?, Except.toOption, Option.map_some, Option.bind_some]
  rcases item start with _ | ⟨a, after, _⟩
  · rfl
  simp only [taken?, Option.bind_some]
  cases readFields item false after <;> rfl

/-- The fields of an object are read from a text of fields, up to what closes the object. -/
theorem Items.of_reads_fields (sound : ∀ {cs rest : List Char} {a : α}, Reads item cs a rest →
      ∃ g u, cs = g ++ (u ++ rest) ∧ Blank g ∧ spelled u a)
    {first : Bool} {cs last : List Char} {fields : List (String × α)}
    (h : Reads (readFields item first) cs fields last) :
    ∃ t r, cs = t ++ last ∧ last = '\x7d' :: r ∧ Items Blank (FieldText spelled) first t fields := by
  induction hn : cs.length using Nat.strongRecOn generalizing first cs fields last with
  | ind n ih =>
    subst hn
    rw [Reads, taken_readFields, Option.bind_eq_some_iff] at h
    obtain ⟨_ | name, next, h⟩ := h
    · obtain ⟨g, blank, hg⟩ := exists_blank cs
      obtain ⟨r, hr⟩ := end_of_nextField next
      obtain ⟨rfl, rfl⟩ := Prod.mk.inj (Option.some.inj h)
      exact ⟨g, r, hg, hr, .nil blank⟩
    obtain ⟨⟨key, colon⟩, hkey, h⟩ := Option.bind_eq_some_iff.mp h
    obtain ⟨start, hstart, h⟩ := Option.bind_eq_some_iff.mp h
    obtain ⟨⟨a, after⟩, ha, h⟩ := Option.bind_eq_some_iff.mp h
    obtain ⟨⟨fs, final⟩, hfs, same⟩ := Option.map_eq_some_iff.mp h
    obtain ⟨rfl, rfl⟩ := Prod.mk.inj same
    obtain ⟨k, rfl, quotes⟩ := quotes_readString hkey
    obtain ⟨j, blank, rfl⟩ := colon_of_readColon hstart
    obtain ⟨m, u, rfl, blank', spells⟩ := sound ha
    have field : FieldText spelled _ (String.ofList key, a) := .mk quotes blank blank' spells
    obtain ⟨g, blank'', ⟨rfl, rfl⟩ | ⟨rfl, l, blank''', rfl⟩⟩ := name_of_nextField next
    · obtain ⟨t, r, rfl, hr, others⟩ := ih after.length
        (by simp only [List.length_append, List.length_cons]; omega) hfs rfl
      exact ⟨g ++ (_ ++ t), r, by simp, hr, .first blank'' field others⟩
    · obtain ⟨t, r, rfl, hr, others⟩ := ih after.length
        (by simp only [List.length_append, List.length_cons]; omega) hfs rfl
      exact ⟨g ++ ',' :: (l ++ (_ ++ t)), r, by simp, hr, .next blank'' blank''' field others⟩

/-- Behind its quote, a field is read from its text, and then the fields behind it. -/
theorem FieldText.taken (complete : ∀ {u : List Char} {a : α}, spelled u a → Spelling item u a)
    {u : List Char} {f : String × α} (h : FieldText spelled u f) {more : List Char}
    (ends : EndsNumber more) :
    ∃ name, u = '"' :: name ∧
      ((taken? (readString (name ++ more))).bind fun k =>
        (left? (readColon k.2)).bind fun start => (taken? (item start)).bind fun r =>
          (taken? (readFields item false r.2)).map fun s => ((String.ofList k.1, r.1) :: s.1, s.2)) =
        (taken? (readFields item false more)).map fun s => (f :: s.1, s.2) := by
  obtain @⟨k, ds, g, l, v, a, quotes, blank, blank', spelled⟩ := h
  have string : taken? (readString (k ++ '"' :: (g ++ ':' :: (l ++ v)) ++ more)) =
      some (ds, g ++ ':' :: (l ++ (v ++ more))) := by
    have whole : k ++ '"' :: (g ++ ':' :: (l ++ v)) ++ more =
        k ++ '"' :: (g ++ ':' :: (l ++ (v ++ more))) := by simp
    rw [whole]
    exact quotes.reads _
  have value : taken? (item (l ++ (v ++ more))) = some (a, more) :=
    (complete spelled).reads l more blank' ends
  refine ⟨_, rfl, ?_⟩
  simp only [string, left_readColon_blank blank, value, Option.bind_some]

theorem Items.endsNumber_field {t : List Char} {fields : List (String × α)}
    (h : Items Blank (FieldText spelled) false t fields) (r : List Char) :
    EndsNumber (t ++ '\x7d' :: r) := by
  have ends : EndsNumber ('\x7d' :: r) := fun d hd => Option.some.inj hd ▸ by decide
  cases h with
  | nil blank => exact .blank blank ends
  | next blank =>
    rw [List.append_assoc, List.cons_append]
    exact .blank blank fun d hd => Option.some.inj hd ▸ by decide

theorem Items.reads_fields (complete : ∀ {u : List Char} {a : α}, spelled u a → Spelling item u a)
    {first : Bool} {t : List Char} {fields : List (String × α)}
    (h : Items Blank (FieldText spelled) first t fields) (r : List Char) :
    Reads (readFields item first) (t ++ '\x7d' :: r) fields ('\x7d' :: r) := by
  induction h with
  | @nil first g blank =>
    rw [Reads, taken_readFields, more_nextField_close blank, Option.bind_some,
      skipBlanks_append blank, skipBlanks_cons rfl]
  | @first g u t f fields blank field others ih =>
    obtain ⟨name, rfl, read⟩ := field.taken complete (others.endsNumber_field r)
    rw [Reads, taken_readFields, List.append_assoc, List.append_assoc, List.cons_append,
      more_nextField_first blank, Option.bind_some]
    dsimp only
    rw [read, ih, Option.map_some]
  | @next g h u t f fields blank blank' field others ih =>
    obtain ⟨name, rfl, read⟩ := field.taken complete (others.endsNumber_field r)
    rw [Reads, taken_readFields, List.append_assoc, List.cons_append, List.append_assoc,
      List.append_assoc, List.cons_append, more_nextField_next blank blank', Option.bind_some]
    dsimp only
    rw [read, ih, Option.map_some]

end

end Lightshow.Json
