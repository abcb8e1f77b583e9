/-
Where requests for a light go.

The address of a light and the address of its state are two texts, and each is read on its own.  They
differ behind the host only, because a path to the light comes between; so when the first is an
address, the second is one, of the same host.

* `Url.site_prolonged` -- what comes behind the path to the lights does not matter for the host;
* `Connector.reaches` -- a light that can be asked for can be changed.
-/
import Lightshow.Proofs.Lossy

namespace Lightshow

namespace Web.Url

/-! ### Ends of a text -/

section

variable {p : Char → Bool} {xs ys : List Char}

/-- What is dropped ends where something stays. -/
theorem dropWhile_append_stop (stop : ∀ c ∈ ys.head?, p c = false) (some : ys ≠ []) :
    (xs ++ ys).dropWhile p = xs.dropWhile p ++ ys := by
  have kept : ys.dropWhile p = ys := by
    cases ys with
    | nil => exact absurd rfl some
    | cons c ys => exact List.dropWhile_cons_of_neg (by simp [stop c rfl])
  rw [List.dropWhile_append]
  split
  case isTrue none => rw [List.isEmpty_iff.mp none, List.nil_append, kept]
  case isFalse => rfl

theorem mem_of_head?_append {c : Char} (some : xs ≠ []) (h : c ∈ (xs ++ ys).head?) : c ∈ xs := by
  cases xs with
  | nil => exact absurd rfl some
  | cons d xs => exact Option.some.inj h ▸ List.mem_cons_self

theorem takeWhile_append_stop (stop : ∀ c ∈ ys.head?, p c = false) :
    (xs ++ ys).takeWhile p = xs.takeWhile p := by
  have left : ys.takeWhile p = [] := by
    cases ys with
    | nil => rfl
    | cons c ys => exact List.takeWhile_cons_of_neg (by simp [stop c rfl])
  rw [List.takeWhile_append, left, List.append_nil]
  split
  case isTrue all =>
    exact (List.takeWhile_prefix p).eq_of_length all |>.symm
  case isFalse => rfl

end

/-- Blanks and control characters. -/
def isEdge (c : Char) : Bool := c.toNat ≤ 0x20

/-- Tabs and line breaks do not count anywhere. -/
def isCounted (c : Char) : Bool := c ≠ '\t' && c ≠ '\n' && c ≠ '\r'

/-- The characters that count. -/
def counted (cs : List Char) : List Char := cs.filter isCounted

/-- The text without the blanks at its end. -/
def trimmed (cs : List Char) : List Char := (cs.reverse.dropWhile isEdge).reverse

/-- What is taken out around visible characters, and in the rest. -/
theorem cleaned_around (front : List Char) {visible : List Char} (some : visible ≠ [])
    (seen : ∀ c ∈ visible, 0x20 < c.toNat) (rest : List Char) :
    cleaned (front ++ (visible ++ rest)) =
      counted (front.dropWhile isEdge) ++ (visible ++ counted (trimmed rest)) := by
  have solid : ∀ c ∈ visible, isEdge c = false := fun c hc =>
    decide_eq_false (Nat.not_le.mpr (seen c hc))
  have kept : visible.filter isCounted = visible := by
    refine List.filter_eq_self.mpr fun c hc => ?_
    have visible := seen c hc
    have other : ∀ d : Char, d.toNat ≤ 0x20 → c ≠ d := by
      rintro d small rfl
      exact absurd visible (Nat.not_lt.mpr small)
    simp [isCounted, other '\t' (by decide), other '\n' (by decide), other '\r' (by decide)]
  have first : (front ++ (visible ++ rest)).dropWhile isEdge =
      front.dropWhile isEdge ++ (visible ++ rest) := by
    refine dropWhile_append_stop (fun c hc => solid c ?_) (by simp [some])
    exact mem_of_head?_append some hc
  have last : ((front.dropWhile isEdge ++ (visible ++ rest)).reverse.dropWhile isEdge).reverse =
      front.dropWhile isEdge ++ (visible ++ trimmed rest) := by
    have ends : ∀ c ∈ (visible.reverse ++ (front.dropWhile isEdge).reverse).head?,
        isEdge c = false := by
      intro c hc
      exact solid c (List.mem_reverse.mp (mem_of_head?_append (by simpa using some) hc))
    rw [List.reverse_append, List.reverse_append, List.append_assoc,
      dropWhile_append_stop ends (by simp [some])]
    simp only [List.reverse_append, List.reverse_reverse, List.append_assoc, trimmed]
  show (((front ++ (visible ++ rest)).dropWhile isEdge).reverse.dropWhile isEdge).reverse.filter
    isCounted = _
  rw [first, last, List.filter_append, List.filter_append, kept]
  rfl

/-- Blanks and line breaks that are taken out do not matter for what stands around visible
characters. -/
theorem exists_cleaned (front visible : List Char) (some : visible ≠ [])
    (seen : ∀ c ∈ visible, 0x20 < c.toNat) :
    ∃ start, ∀ rest, ∃ tail, cleaned (front ++ (visible ++ rest)) = start ++ (visible ++ tail) :=
  ⟨_, fun rest => ⟨_, cleaned_around front some seen rest⟩⟩

/-! ### Hosts -/

/-- Where an address leads, whatever is asked there. -/
def site (u : Url) : Bool × Host × Option Nat := (u.secure, u.host, u.port)

/-- A host with its port, as they stand in front of a path. -/
def siteOf? (secure : Bool) (authority : List Char) : Option (Bool × Host × Option Nat) := do
  let (host, port) := splitPort false (behindAt authority)
  if host.isEmpty then none
  let host ← Host.parse? host
  let port ← port? secure (port.getD [])
  return (secure, host, port)

theorem map_site_afterStart? (secure : Bool) (cs : List Char) :
    (afterStart? secure cs).map site =
      siteOf? secure ((cs.dropWhile isSlash).takeWhile (!endsAuthority ·)) := by
  rw [afterStart?, siteOf?]
  dsimp only
  generalize splitPort false (behindAt ((cs.dropWhile isSlash).takeWhile (!endsAuthority ·))) = parts
  obtain ⟨host, port⟩ := parts
  dsimp only
  split
  · rfl
  · cases Host.parse? host with
    | none => rfl
    | some host =>
      cases port? secure (port.getD []) with
      | none => rfl
      | some port => rfl

/-- A step of the path to a light. -/
def lightsStep : List Char := ['l', 'i', 'g', 'h', 't', 's']

/-- Path to the lights. -/
def toLights : List Char := '/' :: (lightsStep ++ ['/'])

/-- A path to the lights lies behind the start of an address. -/
theorem exists_drop_of_prefix {scheme start : List Char} (foreign : 'l' ∉ scheme)
    (h : scheme <+: (start ++ toLights).map Char.toLower) :
    ∃ between, ∀ tail, (start ++ (toLights ++ tail)).drop scheme.length =
      between ++ (lightsStep ++ '/' :: tail) := by
  have short : scheme.length ≤ (start ++ ['/']).length := by
    refine Nat.le_of_not_lt fun long => ?_
    rw [List.length_append, List.length_singleton] at long
    obtain ⟨rest, whole⟩ := h
    have here : (scheme ++ rest)[start.length + 1]? = some 'l' := by
      rw [whole, List.getElem?_map, List.getElem?_append_right (by omega), Nat.add_sub_cancel_left]
      rfl
    rw [List.getElem?_append_left (by omega)] at here
    exact foreign (List.mem_of_getElem? here)
  refine ⟨(start ++ ['/']).drop scheme.length, fun tail => ?_⟩
  have split : start ++ (toLights ++ tail) = (start ++ ['/']) ++ (lightsStep ++ '/' :: tail) := by
    simp [toLights]
  rw [split, List.drop_append_of_le_length short]

/-- The host ends in front of the path to the lights. -/
theorem site_afterStart? (secure : Bool) (between tail : List Char) :
    (afterStart? secure (between ++ (lightsStep ++ '/' :: tail))).map site =
      siteOf? secure ((between.dropWhile isSlash ++ lightsStep).takeWhile (!endsAuthority ·)) := by
  have first : ∀ c ∈ (lightsStep ++ '/' :: tail).head?, isSlash c = false := by
    rintro c ⟨⟩
    rfl
  have last : ∀ c ∈ ('/' :: tail).head?, (!endsAuthority c) = false := by
    rintro c ⟨⟩
    rfl
  rw [map_site_afterStart?, dropWhile_append_stop first (by simp), ← List.append_assoc,
    takeWhile_append_stop last]

/-- What comes behind the path to the lights does not matter for the host. -/
theorem site_prolonged (front rest rest' : List Char) :
    (parse? (String.ofList (front ++ (toLights ++ rest)))).map site =
      (parse? (String.ofList (front ++ (toLights ++ rest')))).map site := by
  obtain ⟨start, kept⟩ := exists_cleaned front toLights (by decide) (by simp [toLights, lightsStep])
  have starts : ∀ (s : String) tail, s.length ≤ toLights.length →
      s.toList.isPrefixOf ((start ++ (toLights ++ tail)).map Char.toLower) =
        s.toList.isPrefixOf ((start ++ toLights).map Char.toLower) := by
    intro s tail short
    rw [Bool.eq_iff_iff, List.isPrefixOf_iff_prefix, List.isPrefixOf_iff_prefix, ← List.append_assoc,
      List.map_append]
    refine ⟨fun h => List.prefix_of_prefix_length_le h (List.prefix_append _ _) ?_,
      fun h => h.trans (List.prefix_append _ _)⟩
    rw [List.length_map, List.length_append, String.length_toList]
    exact Nat.le_trans short (Nat.le_add_left _ _)
  have behind : ∀ (secure : Bool) (s : String) tail tail', 'l' ∉ s.toList →
      s.toList.isPrefixOf ((start ++ toLights).map Char.toLower) = true →
      (afterStart? secure ((start ++ (toLights ++ tail)).drop s.length)).map site =
        (afterStart? secure ((start ++ (toLights ++ tail')).drop s.length)).map site := by
    intro secure s tail tail' foreign h
    obtain ⟨between, split⟩ := exists_drop_of_prefix foreign (List.isPrefixOf_iff_prefix.mp h)
    rw [← String.length_toList, split, split, site_afterStart?, site_afterStart?]
  obtain ⟨tail, htail⟩ := kept rest
  obtain ⟨tail', htail'⟩ := kept rest'
  rw [parse?, parse?, String.toList_ofList, String.toList_ofList, htail, htail']
  dsimp only
  simp only [starts plainStart _ (by decide), starts secureStart _ (by decide)]
  split
  case isTrue plain => exact behind false plainStart tail tail' (by decide) plain
  case isFalse =>
    split
    case isTrue secure => exact behind true secureStart tail tail' (by decide) secure
    case isFalse => rfl

end Web.Url

namespace Hue

open Web

/-- A light that can be asked for can be changed. -/
theorem Connector.reaches (c : Connector)
    (light : (Url.parse? c.handle.address).any Url.isSendable = true) :
    Reaches c.handle.address := by
  refine ⟨light, ?_⟩
  have whole : ∀ rest, c.base ++ "/lights/" ++ rest =
      String.ofList (c.base.toList ++ (Url.toLights ++ rest.toList)) := by
    intro rest
    rw [← String.toList_inj, String.toList_ofList, String.toList_append, String.toList_append,
      List.append_assoc]
    rfl
  have same := Url.site_prolonged c.base.toList c.light.toList (c.light ++ "/state").toList
  rw [← whole, ← whole, ← String.append_assoc] at same
  obtain ⟨url, parsed, sendable⟩ := (Option.any_eq_true _ _).mp light
  rw [show Url.parse? (c.base ++ "/lights/" ++ c.light) = some url from parsed, Option.map_some] at same
  obtain ⟨url', parsed', site⟩ := Option.map_eq_some_iff.mp same.symm
  refine (Option.any_eq_true _ _).mpr ⟨url', parsed', ?_⟩
  have host : url'.host = url.host := (Prod.mk.inj (Prod.mk.inj site).2).1
  rw [Url.isSendable, host]
  exact sendable

end Hue

end Lightshow
