/-
Lines of a script and lines of its document.

Nothing that the rewriting does reaches over the end of a line: a hexadecimal number has no line
feed in it, a comment ends in front of one, and the marks are changed one by one.  So the document
has the lines of the script, each rewritten by itself, and the line that is named when the document
cannot be read is the line of the script.

* `lines`, `lines_induction` -- a text by its lines;
* `lines_strictText`, `lines_dropLastComma`, `lines_normalize` -- what becomes of each of them;
* `Stop.inText_onLine` -- the line and column at which reading stopped;
* `normalize_lines` -- the lines of the document, its marks, and the places of its faults.
-/
import Lightshow.Proofs.Elements

namespace Lightshow

variable {a b cs row : List Char}

/-! ### Texts by lines -/

/-- Lists that have the same places have the same length. -/
theorem length_eq_of_getElem? {α β : Type} {xs : List α} {ys : List β} {f : Nat → β → α}
    (h : ∀ k, xs[k]? = ys[k]?.map (f k)) : xs.length = ys.length := by
  have ends : ∀ k, xs.length ≤ k ↔ ys.length ≤ k := by
    intro k
    rw [← List.getElem?_eq_none_iff, ← List.getElem?_eq_none_iff, h, Option.map_eq_none_iff]
  exact Nat.le_antisymm ((ends _).mpr (Nat.le_refl _)) ((ends _).mp (Nat.le_refl _))

/-- The lines of a text, without the line feeds between them. -/
def lines (cs : List Char) : List (List Char) := cs.splitOn '\n'

theorem lines_line (h : '\n' ∉ a) : lines a = [a] := List.splitOn_eq_singleton h

theorem lines_append_cons (a b : List Char) : lines (a ++ '\n' :: b) = lines a ++ lines b :=
  List.splitOn_append_cons_self a b

theorem lines_cons (h : '\n' ∉ a) (b : List Char) : lines (a ++ '\n' :: b) = a :: lines b := by
  rw [lines_append_cons, lines_line h, List.singleton_append]

/-- A text is one line, or a line stands in front of the others. -/
theorem lines_induction {motive : List Char → Prop} (line : ∀ a, '\n' ∉ a → motive a)
    (next : ∀ a b, '\n' ∉ a → motive b → motive (a ++ '\n' :: b)) (cs : List Char) : motive cs := by
  induction hn : cs.length using Nat.strongRecOn generalizing cs with
  | ind n ih =>
    subst hn
    by_cases feed : '\n' ∈ cs
    · obtain ⟨a, b, rfl, first⟩ := List.eq_append_cons_of_mem feed
      exact next a b first (ih b.length (by simp; omega) b rfl)
    · exact line cs feed

theorem length_lines (cs : List Char) : (lines cs).length = cs.count '\n' + 1 := by
  induction cs using lines_induction with
  | line a h => rw [lines_line h, List.count_eq_zero.mpr h, List.length_singleton]
  | next a b h ih =>
    rw [lines_cons h, List.length_cons, ih, List.count_append, List.count_eq_zero.mpr h,
      List.count_cons_self, Nat.zero_add]

theorem lines_pos (cs : List Char) : 0 < (lines cs).length := by
  rw [length_lines]
  exact Nat.succ_pos _

/-- Every other character stands on one of the lines. -/
theorem mem_iff_lines {c : Char} (h : c ≠ '\n') : c ∈ cs ↔ ∃ row ∈ lines cs, c ∈ row := by
  induction cs using lines_induction with
  | line a plain => simp [lines_line plain]
  | next a b plain ih => simp [lines_cons plain, h, ih]

/-- What stands in front of a text stands on its first line. -/
theorem getElem?_lines_append (h : '\n' ∉ a) (cs : List Char) (k : Nat) :
    (lines (a ++ cs))[k]? = (lines cs)[k]?.map fun row => if k = 0 then a ++ row else row := by
  cases cs using lines_induction with
  | line b plain =>
    rw [lines_line plain, lines_line (by simp [h, plain])]
    rcases k with _ | k <;> rfl
  | next b cs plain =>
    rw [← List.append_assoc, lines_cons plain, lines_cons (by simp [h, plain])]
    rcases k with _ | k
    · rfl
    · simp

/-- What stands behind a text stands on its last line. -/
theorem getElem?_append_lines (h : '\n' ∉ a) (cs : List Char) (k : Nat) :
    (lines (cs ++ a))[k]? =
      (lines cs)[k]?.map fun row => if k + 1 = (lines cs).length then row ++ a else row := by
  induction cs using lines_induction generalizing k with
  | line b plain =>
    rw [lines_line plain, lines_line (by simp [h, plain])]
    rcases k with _ | k <;> rfl
  | next b cs plain ih =>
    rw [List.append_assoc, List.cons_append, lines_cons plain, lines_cons plain]
    rcases k with _ | k
    · have more : 0 + 1 ≠ (b :: lines cs).length := by
        have := lines_pos cs
        rw [List.length_cons]
        omega
      simp only [List.getElem?_cons_zero, Option.map_some, if_neg more]
    · simpa using ih k

/-! ### Lines and columns -/

namespace Json

theorem byteLength_append (a b : List Char) : byteLength (a ++ b) = byteLength a + byteLength b := by
  induction a with
  | nil => exact (Nat.zero_add _).symm
  | cons c a ih =>
    show c.utf8Size + byteLength (a ++ b) = c.utf8Size + byteLength a + byteLength b
    rw [ih, Nat.add_assoc]

/-- Number of bytes in front of a line, with the line feeds. -/
def lineStart (rows : List (List Char)) (n : Nat) : Nat :=
  ((rows.take n).map fun row => byteLength row + 1).sum

/-- A place as many lines behind the line `first` as a byte of a text is: its column counts the bytes
of that line. -/
structure OnLine (text : List Char) (bytes first : Nat) (place : Nat × Nat) : Prop where
  line : first ≤ place.1
  row : ∃ row, (lines text)[place.1 - first]? = some row ∧ place.2 ≤ byteLength row
  start : bytes = lineStart (lines text) (place.1 - first) + place.2

/-- A place on the line that begins with `a`, `extra` bytes behind it. -/
theorem OnLine.here (plain : '\n' ∉ a) (cs : List Char) {extra line : Nat}
    (h : ∀ row ∈ (lines cs).head?, extra ≤ byteLength row) :
    OnLine (a ++ cs) (byteLength a + extra) line (line, byteLength a + extra) := by
  obtain ⟨row, rows, same⟩ := List.exists_cons_of_length_pos (lines_pos cs)
  refine ⟨Nat.le_refl line, ⟨a ++ row, ?_, ?_⟩, ?_⟩
  · rw [Nat.sub_self, getElem?_lines_append plain, same]
    rfl
  · rw [byteLength_append]
    exact Nat.add_le_add_left (h row (by rw [same]; rfl)) _
  · rw [Nat.sub_self]
    exact (Nat.zero_add _).symm

/-- A place behind the first line. -/
theorem OnLine.next {bytes line : Nat} {place : Nat × Nat} (plain : '\n' ∉ a)
    (h : OnLine cs bytes (line + 1) place) :
    OnLine (a ++ '\n' :: cs) (byteLength a + 1 + bytes) line place := by
  obtain ⟨behind, ⟨row, same, column⟩, start⟩ := h
  have step : place.1 - line = place.1 - (line + 1) + 1 := by omega
  refine ⟨Nat.le_of_succ_le behind, ⟨row, ?_, column⟩, ?_⟩
  · rw [lines_cons plain, step, List.getElem?_cons_succ, same]
  · rw [lines_cons plain, step, start, lineStart, lineStart, List.take_succ_cons, List.map_cons,
      List.sum_cons]
    omega

theorem placeAfter_onLine (plain : '\n' ∉ a) (bytes line : Nat) (cs : List Char) :
    OnLine (a ++ cs) (byteLength a + min bytes (byteLength cs)) line
      (placeAfter bytes cs (line, byteLength a)) := by
  induction cs generalizing a bytes line with
  | nil =>
    rw [show byteLength [] = 0 from rfl, Nat.min_zero]
    exact OnLine.here plain [] fun _ _ => Nat.zero_le _
  | cons c cs ih =>
    have whole : byteLength (c :: cs) = c.utf8Size + byteLength cs := rfl
    have one : byteLength (a ++ [c]) = byteLength a + c.utf8Size := byteLength_append a [c]
    rw [placeAfter, whole]
    split_ifs with none inside feed
    · rw [none, Nat.zero_min]
      exact OnLine.here plain (c :: cs) fun _ _ => Nat.zero_le _
    · -- no line feed is this long, so the line goes on behind the character
      have other : '\n' ∉ [c] := by
        intro feed
        rw [← List.mem_singleton.mp feed, show Char.utf8Size '\n' = 1 from rfl] at inside
        omega
      rw [Nat.min_eq_left (by omega)]
      refine OnLine.here plain (c :: cs) fun row hrow => ?_
      have first := getElem?_lines_append other cs 0
      rw [← List.head?_eq_getElem?, List.singleton_append, Option.mem_def.mp hrow] at first
      obtain ⟨rest, -, rfl⟩ := Option.map_eq_some_iff.mp first.symm
      rw [if_pos rfl, byteLength_append]
      exact Nat.le_add_right_of_le (Nat.le_of_lt inside)
    · subst feed
      have long : 1 ≤ bytes := Nat.le_of_not_lt inside
      have total : byteLength a + min bytes (1 + byteLength cs) =
          byteLength a + 1 + (byteLength [] + min (bytes - 1) (byteLength cs)) := by
        rw [show byteLength [] = 0 from rfl]
        omega
      rw [show Char.utf8Size '\n' = 1 from rfl, total]
      exact OnLine.next plain (ih (a := []) nofun (bytes - 1) (line + 1))
    · have rest := ih (a := a ++ [c]) (by simp [plain, Ne.symm feed]) (bytes - c.utf8Size) line
      have total : byteLength a + min bytes (c.utf8Size + byteLength cs) =
          byteLength (a ++ [c]) + min (bytes - c.utf8Size) (byteLength cs) := by omega
      rw [total, ← one]
      simpa using rest

/-- The place of a fault: as many bytes into the text as reading had come. -/
theorem Stop.inText_onLine (s : Stop) (text : List Char) : OnLine text
    (min (byteLength text - byteLength s.rest + s.looked) (byteLength text)) 1
    ((s.inText text).line, (s.inText text).column) := by
  have place := placeAfter_onLine (a := []) nofun
    (byteLength text - byteLength s.rest + s.looked) 1 text
  rwa [show byteLength [] = 0 from rfl, Nat.zero_add] at place

end Json

namespace ScriptText

/-! ### The last comma -/

/-- A line that becomes one without the last comma of the text, if no other comes behind it. -/
def withoutComma (later : List (List Char)) (row : List Char) : List Char :=
  if ∃ other ∈ later, ',' ∈ other then row else dropLastComma row

theorem dropLastComma_line (a b : List Char) : dropLastComma (a ++ '\n' :: b) =
    if ',' ∈ b then a ++ '\n' :: dropLastComma b else dropLastComma a ++ '\n' :: b := by
  have feed : dropLastComma ('\n' :: b) = '\n' :: dropLastComma b := by
    have := dropLastComma_append ['\n'] b
    split_ifs at this with comma
    · exact this
    · rw [dropLastComma_of_not_mem comma]
      exact this
  rw [dropLastComma_append]
  simp [feed]

/-- The last comma goes from the last line that has one. -/
theorem lines_dropLastComma (cs : List Char) (k : Nat) : (lines (dropLastComma cs))[k]? =
    (lines cs)[k]?.map (withoutComma ((lines cs).drop (k + 1))) := by
  have plain_of : ∀ {a : List Char}, '\n' ∉ a → '\n' ∉ dropLastComma a :=
    fun plain feed => plain (mem_of_mem_dropLastComma feed)
  induction cs using lines_induction generalizing k with
  | line a plain =>
    rw [lines_line plain, lines_line (plain_of plain)]
    rcases k with _ | k
    · simp [withoutComma]
    · rfl
  | next a b plain ih =>
    have comma : ',' ∈ b ↔ ∃ row ∈ lines b, ',' ∈ row := mem_iff_lines (by decide)
    rw [dropLastComma_line, lines_cons plain]
    split_ifs with later
    · rw [lines_cons plain]
      rcases k with _ | k
      · simp [withoutComma, comma.mp later]
      · simpa using ih k
    · rw [lines_cons (plain_of plain)]
      rcases k with _ | k
      · simp [withoutComma, mt comma.mpr later]
      · have same := ih k
        rw [dropLastComma_of_not_mem later] at same
        simpa using same

/-! ### The other steps -/

theorem dropComments_feed (inside : Bool) (a b : List Char) :
    dropComments inside (a ++ '\n' :: b) = dropComments inside a ++ '\n' :: dropComments false b := by
  rw [dropComments_append inside (by simp)]
  rfl

theorem mem_of_mem_dropComments {c : Char} {inside : Bool} (h : c ∈ dropComments inside cs) :
    c ∈ cs := by
  fun_induction dropComments inside cs with
  | case1 => exact h
  | case2 inside rest ih =>
    rcases List.mem_cons.mp h with rfl | h
    · exact List.mem_cons_self
    · exact List.mem_cons_of_mem _ (ih h)
  | case3 inside rest ih => exact List.mem_cons_of_mem _ (List.mem_cons_of_mem _ (ih h))
  | case4 c rest line slashes ih => exact List.mem_cons_of_mem _ (ih h)
  | case5 inside c rest line slashes outside ih =>
    rcases List.mem_cons.mp h with rfl | h
    · exact List.mem_cons_self
    · exact List.mem_cons_of_mem _ (ih h)

theorem strictMark_ne (c : Char) : strictMark c ≠ '\'' ∧ strictMark c ≠ '{' ∧ strictMark c ≠ '}' := by
  rw [strictMark]
  split_ifs with quote opening closing
  · decide
  · decide
  · decide
  · exact ⟨quote, opening, closing⟩

theorem strictMark_ne_feed {c : Char} (h : c ≠ '\n') : strictMark c ≠ '\n' := by
  rw [strictMark]
  split_ifs
  · decide
  · decide
  · decide
  · exact h

theorem feed_not_mem_strictText (h : '\n' ∉ cs) : '\n' ∉ strictText cs := by
  intro feed
  obtain ⟨c, hc, mark⟩ := List.mem_map.mp feed
  obtain rfl : c = '\n' := by_contra fun other => strictMark_ne_feed other mark
  exact h ((mem_decimalHex (by decide)).mp (mem_of_mem_dropComments hc))

theorem strictText_feed (a b : List Char) :
    strictText (a ++ '\n' :: b) = strictText a ++ '\n' :: strictText b := by
  rw [strictText, decimalHex_barrier (by decide), dropComments_feed, List.map_append, List.map_cons]
  rfl

/-- Hexadecimal numbers, comments and marks are rewritten line by line. -/
theorem lines_strictText (cs : List Char) : lines (strictText cs) = (lines cs).map strictText := by
  induction cs using lines_induction with
  | line a plain => rw [lines_line plain, lines_line (feed_not_mem_strictText plain), List.map_singleton]
  | next a b plain ih =>
    rw [strictText_feed, lines_cons (feed_not_mem_strictText plain), lines_cons plain, ih,
      List.map_cons]

/-- What becomes of a line of a script; the text around the script comes with the first line and
with the last one. -/
def lineText (first last : Bool) (row : List Char) : List Char :=
  (if first then '{' :: ' ' :: fieldText else []) ++
    (strictText (row ++ if last then [' ', ']'] else []) ++ if last then [' ', '}'] else [])

theorem lines_normalize (raw : String) (k : Nat) : (lines (normalize raw).toList)[k]? =
    (lines raw.toList)[k]?.map fun row => lineText (k = 0) (k + 1 = (lines raw.toList).length)
      (withoutComma ((lines raw.toList).drop (k + 1)) row) := by
  have whole : (normalize raw).toList = ('{' :: ' ' :: fieldText) ++
      (strictText (dropLastComma raw.toList ++ [' ', ']']) ++ [' ', '}']) := normalize_toList raw
  have dropped := length_eq_of_getElem? (lines_dropLastComma raw.toList)
  have closed := length_eq_of_getElem?
    (getElem?_append_lines (a := [' ', ']']) (by decide) (dropLastComma raw.toList))
  have strict := congrArg List.length (lines_strictText (dropLastComma raw.toList ++ [' ', ']']))
  rw [List.length_map] at strict
  rw [whole, getElem?_lines_append (by decide), getElem?_append_lines (by decide), strict,
    lines_strictText, List.getElem?_map, getElem?_append_lines (by decide), closed,
    lines_dropLastComma, dropped]
  cases (lines raw.toList)[k]? with
  | none => rfl
  | some row =>
    simp only [Option.map_some, lineText, decide_eq_true_eq]
    split_ifs <;> simp only [List.append_nil, List.nil_append]

/-- The document has as many lines as the script. -/
theorem length_lines_normalize (raw : String) :
    (lines (normalize raw).toList).length = (lines raw.toList).length :=
  length_eq_of_getElem? (lines_normalize raw)

theorem count_feed_normalize (raw : String) :
    (normalize raw).toList.count '\n' = raw.toList.count '\n' := by
  have same := length_lines_normalize raw
  rw [length_lines, length_lines] at same
  exact Nat.succ.inj same

/-- Between its braces, the document has no brace and no single quote. -/
theorem normalize_marks (raw : String) : ∃ body, (normalize raw).toList = '{' :: (body ++ ['}']) ∧
    '\'' ∉ body ∧ '{' ∉ body ∧ '}' ∉ body := by
  refine ⟨' ' :: (fieldText ++ (strictText (dropLastComma raw.toList ++ [' ', ']']) ++ [' '])), ?_, ?_⟩
  · rw [normalize_toList]
    simp
  · have plain : ∀ {c : Char}, (∀ d, strictMark d ≠ c) →
        c ∉ strictText (dropLastComma raw.toList ++ [' ', ']']) := fun other mem =>
      have ⟨d, _, same⟩ := List.mem_map.mp mem
      other d same
    have quote := plain fun c => (strictMark_ne c).1
    have opening := plain fun c => (strictMark_ne c).2.1
    have closing := plain fun c => (strictMark_ne c).2.2
    simp [fieldText, quote, opening, closing]

/-! ### All lines -/

open Json

/-- Where the reading of a whole text stops. -/
def StopsAt (text : List Char) (stop : Stop) : Prop :=
  readValue nestingLimit text = .error stop ∨
    ∃ v rest, readValue nestingLimit text = .ok (v, rest) ∧ readEnd rest.1 = .error stop

theorem stopsAt_of_ofText {text : List Char} {fault : Fault}
    (h : Value.ofText text = .error fault) : ∃ stop, StopsAt text stop ∧ fault = stop.inText text := by
  rw [Value.ofText, wholeText] at h
  cases read : readValue nestingLimit text with
  | error stop =>
    rw [read] at h
    exact ⟨stop, .inl read, (Except.error.inj h).symm⟩
  | ok r =>
    obtain ⟨v, rest⟩ := r
    rw [read] at h
    dsimp only at h
    cases ends : readEnd rest.1 with
    | error stop =>
      rw [ends] at h
      exact ⟨stop, .inr ⟨v, rest, read, ends⟩, (Except.error.inj h).symm⟩
    | ok u =>
      rw [ends] at h
      cases h

/-- A fault has the issue of the stop, and its place. -/
theorem onLine_of_ofText {text : List Char} {fault : Fault} (h : Value.ofText text = .error fault) :
    ∃ stop, StopsAt text stop ∧ fault.issue = stop.issue ∧ OnLine text
      (min (byteLength text - byteLength stop.rest + stop.looked) (byteLength text)) 1
      (fault.line, fault.column) := by
  obtain ⟨stop, stops, rfl⟩ := stopsAt_of_ofText h
  exact ⟨stop, stops, rfl, stop.inText_onLine text⟩

/-- An element that is no command is no fault of the text. -/
theorem ofText_of_malformed {raw : String} {fault : Fault}
    (h : Script.parse raw = .error (.malformed fault)) :
    Value.ofText (normalize raw).toList = .error fault := by
  rw [Script.parse] at h
  cases read : Value.ofText (normalize raw).toList with
  | error other =>
    rw [read] at h
    rw [ScriptError.malformed.inj (Except.error.inj h)]
  | ok document =>
    rw [read] at h
    dsimp only at h
    rw [Script.ofDocument] at h
    split at h
    · cases h
    · next elements _ =>
      cases result : Script.commandsOf 0 elements with
      | error e =>
        rw [result] at h
        obtain ⟨_, _, _, _, _, _, _, rfl⟩ := Script.first_of_commandsOf result
        cases h
      | ok commands =>
        rw [result] at h
        cases h

/-- **The document has the lines of the script.**  There are as many of them, and each is what
becomes of the line of the script, but for the last comma of the text; between its braces there is
no brace and no single quote.  The line that a fault names is the one on which reading stopped, and
so it is that line of the script. -/
theorem normalize_lines (raw : String) :
    (normalize raw).toList.count '\n' = raw.toList.count '\n' ∧
    (lines (normalize raw).toList).length = (lines raw.toList).length ∧
    (∀ k, (lines (normalize raw).toList)[k]? = (lines raw.toList)[k]?.map fun row =>
      lineText (k = 0) (k + 1 = (lines raw.toList).length)
        (withoutComma ((lines raw.toList).drop (k + 1)) row)) ∧
    (∃ body, (normalize raw).toList = '{' :: (body ++ ['}']) ∧ '\'' ∉ body ∧ '{' ∉ body ∧ '}' ∉ body) ∧
    ∀ fault, Script.parse raw = .error (.malformed fault) → ∃ stop, StopsAt (normalize raw).toList stop ∧
      fault.issue = stop.issue ∧ 1 ≤ fault.line ∧ fault.line ≤ (lines raw.toList).length ∧
      OnLine (normalize raw).toList
        (min (byteLength (normalize raw).toList - byteLength stop.rest + stop.looked)
          (byteLength (normalize raw).toList)) 1 (fault.line, fault.column) := by
  refine ⟨count_feed_normalize raw, length_lines_normalize raw, lines_normalize raw,
    normalize_marks raw, ?_⟩
  intro fault h
  obtain ⟨stop, stops, issue, place⟩ := onLine_of_ofText (ofText_of_malformed h)
  obtain ⟨row, same, -⟩ := place.row
  have behind : fault.line - 1 < (lines (normalize raw).toList).length :=
    (List.getElem?_eq_some_iff.mp same).1
  have many : (lines (normalize raw).toList).length = (lines raw.toList).length :=
    length_lines_normalize raw
  have first : 1 ≤ fault.line := place.line
  exact ⟨stop, stops, issue, first, by omega, place⟩

/-- A word where a parameter is expected, on the second line of a script. -/
theorem normalize_lines_word :
    let raw := "[1, ['f', 2]], // fade\n[0, ['c', 0xff, red]],\n"
    let fault : Fault := ⟨.valueExpected, 2, 16⟩
    Script.parse raw = .error (.malformed fault) ∧
      lines raw.toList = ["[1, ['f', 2]], // fade".toList, "[0, ['c', 0xff, red]],".toList, []] ∧
      ∃ stop, StopsAt (normalize raw).toList stop ∧ fault.issue = stop.issue ∧
        fault.line ≤ (lines raw.toList).length := by
  have malformed : Script.parse "[1, ['f', 2]], // fade\n[0, ['c', 0xff, red]],\n" =
      .error (.malformed ⟨.valueExpected, 2, 16⟩) := by cbv
  obtain ⟨-, -, -, -, faults⟩ := normalize_lines "[1, ['f', 2]], // fade\n[0, ['c', 0xff, red]],\n"
  obtain ⟨stop, stops, issue, -, line, -⟩ := faults _ malformed
  exact ⟨malformed, by decide +kernel, stop, stops, issue, line⟩

end ScriptText

end Lightshow
