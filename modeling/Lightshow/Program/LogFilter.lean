/-
Which reports are shown.

A filter is a list of rules between commas.  A rule gives a level to everything, or to the targets
that start with a given text; of several that apply to a target, the one with the longest text
counts, and of equal ones the last.  A rule for a span is understood but applies to no report.

* `LogFilter.parse?` -- the filter that a text spells;
* `LogFilter.shows` -- whether a report of a target and level is shown.
-/
import Lightshow.Number.Numeral
import Lightshow.Playback.Message
import Lightshow.Text.Blank

namespace Lightshow

/-- How much is shown, from nothing to everything. -/
inductive Verbosity where
  | off
  | error
  | warn
  | info
  | debug
  | trace
  deriving DecidableEq, Repr

namespace Verbosity

/-- Position on the scale. -/
def rank : Verbosity → Nat
  | off => 0
  | error => 1
  | warn => 2
  | info => 3
  | debug => 4
  | trace => 5

/-- All of the scale with the names. -/
def named : List (String × Verbosity) :=
  [("off", off), ("error", error), ("warn", warn), ("info", info), ("debug", debug),
    ("trace", trace)]

/-- The verbosity with a name in any case, or with a number. -/
def ofText? (text : String) : Option Verbosity :=
  let digits := match text.toList with
    | '+' :: rest => rest
    | cs => cs
  let rank? := if digits.isEmpty then none else Numeral.number? 10 digits
  ((named.find? fun v => rank? = some v.2.rank).or
    (named.find? fun v => v.1 = text.map Char.toLower)).map (·.2)

end Verbosity

/-- How much has to be shown for a report of that weight. -/
def Level.verbosity : Level → Verbosity
  | .error => .error
  | .warn => .warn
  | .info => .info

/-- A rule of a filter. -/
structure LogRule where
  /-- Start of the targets, or all of them. -/
  target : Option String
  /-- Whether the rule is for a span. -/
  ofSpan : Bool
  verbosity : Verbosity
  deriving DecidableEq, Repr

namespace LogRule

/-- Whether a rule may begin with a character, besides the bracket of a span. -/
def mayBegin (c : Char) : Bool :=
  c.isAlphanum || c = '_' || c = ':' || c = '-' || 0x80 ≤ c.toNat

/-- What stands behind a span whose bracket has been opened: its name, or fields between braces. -/
def afterSpan? (cs : List Char) : Option (List Char) :=
  match cs.dropWhile fun c => c ≠ ']' && c ≠ '{' with
  | ']' :: rest => some rest
  | '{' :: '}' :: _ => none
  | '{' :: fields =>
    match fields.dropWhile (· ≠ '}') with
    | '}' :: ']' :: rest => some rest
    | _ => none
  | _ => none

/-- The verbosity behind the equals sign of a rule; without one, everything is shown. -/
def verbosityOf? : List Char → Option Verbosity
  | [] | ['='] => some .trace
  | '=' :: level => Verbosity.ofText? (String.ofList level)
  | _ => none

/-- The rule that a text spells: a level, a place, or both with an equals sign between them.  Only
a text that is a level or a target as a whole may have blanks at its ends. -/
def parse? (text : String) : Option LogRule :=
  let bare := (Text.trim text).toList
  let target := bare.takeWhile fun c => c ≠ '=' && c ≠ '['
  let rest := bare.drop target.length
  if !(bare.head?.any fun c => mayBegin c || c = '[') then none
  else if rest.isEmpty then
    match Verbosity.ofText? text with
    | some v => some ⟨none, false, v⟩
    | none => some ⟨some text, false, .trace⟩
  else if rest.contains '=' && bare.length < text.length then none
  else do
    let place := if target.isEmpty then none else some (String.ofList target)
    match rest with
    | '[' :: span => return ⟨place, true, ← verbosityOf? (← afterSpan? span)⟩
    | level => return ⟨place, false, ← verbosityOf? level⟩

/-- Whether the rule applies to a target. -/
def appliesTo (r : LogRule) (target : String) : Bool :=
  !r.ofSpan && match r.target with
    | none => true
    | some start => start.toList.isPrefixOf target.toList

/-- How closely the rule describes its targets. -/
def closeness (r : LogRule) : Nat :=
  match r.target with
  | none => 0
  | some start => start.utf8ByteSize + 1

end LogRule

/-- Rules in the order in which they were given. -/
structure LogFilter where
  rules : List LogRule

namespace LogFilter

/-- Everything of some verbosity. -/
def upTo (v : Verbosity) : LogFilter := ⟨[⟨none, false, v⟩]⟩

/-- The filter that a text spells; an empty one shows errors alone. -/
def parse? (text : String) : Option LogFilter := do
  let rules ← ((text.splitOn ",").filter (!·.isEmpty)).mapM LogRule.parse?
  return if rules.isEmpty then upTo .error else ⟨rules⟩

/-- The filter of an environment, where nothing or nonsense means the usual one. -/
def ofText (text : Option String) : LogFilter := (text.bind parse?).getD (upTo .info)

/-- The rule that counts for a target. -/
def ruleFor? (f : LogFilter) (target : String) : Option LogRule :=
  (f.rules.filter (·.appliesTo target)).foldl (fun best r =>
    match best with
    | some b => if b.closeness ≤ r.closeness then some r else best
    | none => some r) none

/-- Whether a report of a target and level is shown. -/
def shows (f : LogFilter) (target : String) (level : Level) : Bool :=
  match f.ruleFor? target with
  | some r => level.verbosity.rank ≤ r.verbosity.rank
  | none => false

end LogFilter

end Lightshow
