/-
What an accepted script says.

The list of a script is closed by the first bracket that closes more than was opened.  As long as
the script has no such bracket of its own, that is the one behind it, and an accepted script is a
list by itself, with a command for each of its items.  A script that closes the list early can
open another field, which is taken instead.

* `Unclosed` -- no part of a text from its beginning closes more brackets than it opens;
* `Script.parse_sound` -- an accepted script that is unclosed is a list of its commands;
* `Script.parse_reopened` -- one that closes the list early, and is cut.
-/
import Mathlib
import Lightshow.Proofs.Balance
import Lightshow.Proofs.Document

namespace Lightshow

open Json ScriptText

/-- No part of a text from its beginning closes more brackets than it opens. -/
def Unclosed (cs : List Char) : Prop :=
  ∀ front ∈ cs.inits, 0 ≤ ((⟨.outside, 0⟩ : Scan).past front).opened

instance (cs : List Char) : Decidable (Unclosed cs) :=
  inferInstanceAs (Decidable (∀ _ ∈ _, _))

/-- The rewritten text of a script is followed by what closes the list, or ends in a comment. -/
theorem strictText_closed (cs : List Char) : strictText (cs ++ [' ', ']']) =
    strictText cs ++ if endsInside false (decimalHex cs) then [] else [' ', ']'] := by
  have apart : Apart cs [' ', ']'] := Apart.of_head fun c hc => Option.some.inj hc ▸ rfl
  rw [strictText_append apart (by decide)]
  cases endsInside false (decimalHex cs) <;> rfl

/-- **An accepted script is a list of its commands**, if no bracket of its own closes it. -/
theorem Script.parse_sound {raw : String} {s : Script} (h : Script.parse raw = .ok s)
    (unclosed : Unclosed (rewritten raw.toList)) :
    ∃ vs, Value.ofText ('[' :: (rewritten raw.toList ++ [']'])) = .ok (.list vs) ∧
      List.Forall₂ (fun v c => Command.ofValue v = .ok c) vs s.commands := by
  have whole := normalize_toList raw
  rw [strictText_closed, ← rewritten_eq] at whole
  generalize rewritten raw.toList = body at whole unclosed ⊢
  obtain ⟨vs, rest, read, commands⟩ := exists_items_of_parse h whole
  obtain ⟨t, r, same, hr, items⟩ := Items.of_reads (fun read => Value.Text.of_reads read) read
  obtain rfl := (List.cons.inj hr).2
  -- the bracket that closes the list is the first one too many
  have closes : ((⟨.outside, 0⟩ : Scan).past (t ++ [']'])).opened = -1 := by
    rw [Scan.past_append, items.past fun text => text.past]
    rfl
  have own : ∀ more, t ++ ']' :: more ≠ body := by
    rintro more rfl
    have := unclosed (t ++ [']']) ((List.mem_inits _ _).mpr ⟨more, by simp⟩)
    omega
  generalize endsInside false (decimalHex (dropLastComma raw.toList)) = commented at same
  obtain ⟨k, rfl, behind⟩ : ∃ k, t = body ++ k ∧
      (if commented then [] else [' ', ']']) ++ [' ', '\x7d'] = k ++ ']' :: rest := by
    rw [List.append_assoc] at same
    rcases List.append_eq_append_iff.mp same with ⟨k, hk, behind⟩ | ⟨k, hk, behind⟩
    · exact ⟨k, hk, behind⟩
    · rcases k with _ | ⟨d, k⟩
      · exact ⟨[], by simpa using hk.symm, behind.symm⟩
      · obtain ⟨rfl, -⟩ := List.cons.inj behind
        exact absurd hk.symm (own k)
  have late : ∀ k, [' ', '\x7d'] ≠ k ++ ']' :: rest := by
    intro k same
    have bracket : ']' ∈ [' ', '\x7d'] := by
      rw [same]
      simp
    exact absurd bracket (by decide)
  cases commented with
  | true => exact absurd behind (late k)
  | false =>
    -- only the first blank stands in front of the bracket
    obtain ⟨rfl, rfl⟩ : k = [' '] ∧ rest = [' ', '\x7d'] := by
      rcases k with _ | ⟨_, _ | ⟨_, k⟩⟩
      · exact absurd (List.cons.inj behind).1 (by decide)
      · obtain ⟨rfl, tails⟩ := List.cons.inj behind
        exact ⟨rfl, (List.cons.inj tails).2.symm⟩
      · exact absurd (List.cons.inj (List.cons.inj behind).2).2 (late k)
    refine ⟨vs, ?_, commands rfl⟩
    have list : Value.Text nestingLimit ('[' :: (body ++ [']'])) (.list vs) :=
      Layer.list ((items.of_append_blank rfl Value.Text.ends).imp Value.Text.succ)
    exact Value.ofText_eq_ok_iff.mpr ⟨[], _, [], by simp, .nil, .nil, list⟩

theorem Script.parse_sound_fade :
    (Script.parse "[1, ['f', 2]]," = .ok ⟨[⟨1, .fade, [2]⟩]⟩ ∧
      Unclosed (rewritten "[1, ['f', 2]],".toList)) ∧
      ∃ vs, Value.ofText ('[' :: (rewritten "[1, ['f', 2]],".toList ++ [']'])) = .ok (.list vs) ∧
        List.Forall₂ (fun v c => Command.ofValue v = .ok c) vs [⟨1, .fade, [2]⟩] := by
  have parsed : Script.parse "[1, ['f', 2]]," = .ok ⟨[⟨1, .fade, [2]⟩]⟩ := by cbv
  have unclosed : Unclosed (rewritten "[1, ['f', 2]],".toList) := by decide +kernel
  exact ⟨⟨parsed, unclosed⟩, Script.parse_sound parsed unclosed⟩

/-- A script that closes the list and opens another field: it is accepted without its second
command, and is no list by itself. -/
theorem Script.parse_reopened :
    Script.parse "[1, ['f', 2]]], 'more': [[3, ['f', 4]]," = .ok ⟨[⟨1, .fade, [2]⟩]⟩ ∧
      ∀ vs, Value.ofText ('[' :: (rewritten "[1, ['f', 2]]], 'more': [[3, ['f', 4]],".toList ++
        [']'])) ≠ .ok (.list vs) := by
  refine ⟨by cbv, fun vs accepted => ?_⟩
  have refused : (Value.ofText ('[' :: (rewritten "[1, ['f', 2]]], 'more': [[3, ['f', 4]],".toList ++
      [']']))).toOption.isNone = true := by decide +kernel
  rw [accepted] at refused
  cases refused

end Lightshow
