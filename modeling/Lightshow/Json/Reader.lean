/-
Reading JSON text.

The reader walks a list of characters and stops at the first issue.  Every step returns the text
that is left together with a proof that it is shorter, which is why lists and objects of any
length are read without a bound; nesting is bounded by `nestingLimit`, on which `readValue`
recurses.  A number outside 64 bits, or with a point or an exponent, is a double: the leading
digits that fit into 64 bits, scaled by a power of ten.

* `Value.ofText` -- a whole text as a value, or its first fault;
* `skipValue` -- the text after a value that nobody asks for.
-/
import Lightshow.Json.Issue
import Lightshow.Number.Numeral

namespace Lightshow.Json

/-- What is left of a text after at least one character. -/
abbrev Shorter (cs : List Char) := { rest : List Char // rest.length < cs.length }

/-- What is left of a text. -/
abbrev Rest (cs : List Char) := { rest : List Char // rest.length ≤ cs.length }

/-- Stops in front of a text, having looked at some of its bytes. -/
def stopAt {α : Type} (issue : Issue) (rest : List Char) (looked : Nat) : Except Stop α :=
  .error ⟨issue, rest, looked⟩

/-- Stops at the next character of a text, if there is one. -/
def stopAtNext {α : Type} (issue : Issue) (rest : List Char) : Except Stop α :=
  stopAt issue rest (min 1 rest.length)

/-! ### Blanks and words -/

/-- Space, tab, line feed and carriage return separate the parts of a text. -/
def isBlank (c : Char) : Bool := c = ' ' || c = '\n' || c = '\t' || c = '\r'

/-- The text without the blanks it starts with. -/
def skipBlanks (cs : List Char) : List Char := cs.dropWhile isBlank

theorem skipBlanks_length_le (cs : List Char) : (skipBlanks cs).length ≤ cs.length :=
  (List.dropWhile_suffix isBlank).length_le

theorem length_le_of_skipBlanks {cs rest : List Char} {c : Char} (h : skipBlanks cs = c :: rest) :
    (c :: rest).length ≤ cs.length :=
  h ▸ skipBlanks_length_le cs

theorem length_lt_of_skipBlanks {cs rest : List Char} {c : Char} (h : skipBlanks cs = c :: rest) :
    rest.length < cs.length :=
  length_le_of_skipBlanks h

/-- What is left of a rest is left of the whole text. -/
theorem length_le_of_rest {cs rest last : List Char} (hr : rest.length < cs.length)
    (hl : last.length ≤ rest.length) : last.length ≤ cs.length :=
  Nat.le_trans hl (Nat.le_of_lt hr)

/-- Reads the letters of a word that has begun. -/
def readWord : (word : List Char) → (cs : List Char) → Except Stop (Rest cs)
  | [], cs => .ok ⟨cs, Nat.le_refl _⟩
  | _ :: _, [] => stopAt .endInValue [] 0
  | w :: word, c :: cs =>
    if c = w then do
      let ⟨rest, h⟩ ← readWord word cs
      .ok ⟨rest, Nat.le_succ_of_le h⟩
    else stopAt .identExpected (c :: cs) 1

/-! ### Numbers -/

/-- Value of a decimal digit. -/
def digitValue (c : Char) : Nat := c.toNat - 48

/-- Takes digits as long as the number they spell fits into 64 bits; gives that number and how
many digits it took. -/
def fitDigits (number : Nat) : List Char → Nat × Nat
  | [] => (number, 0)
  | c :: cs =>
    let longer := number * 10 + digitValue c
    if longer < 1 <<< 64 then
      let (all, count) := fitDigits longer cs
      (all, count + 1)
    else (number, 0)

/-- A double scaled by a power of ten, in steps that stay in the range of doubles; `none` if the
result is too large. -/
def scaleByTen : (fuel : Nat) → Float → Int → Option Float
  | 0, x, _ => some x
  | fuel + 1, x, exponent =>
    if exponent.natAbs ≤ 308 then
      let power := Float.ofScientific 1 false exponent.natAbs
      if 0 ≤ exponent then
        let y := x * power
        if y.isInf then none else some y
      else some (x / power)
    else if x == 0.0 then some x
    else if 0 ≤ exponent then none
    else scaleByTen fuel (x / Float.ofScientific 1 false 308) (exponent + 308)

/-- The double `± significand * 10 ^ exponent`, for a significand of 64 bits. -/
def doubleOf (positive : Bool) (significand : Nat) (exponent : Int) : Option Float :=
  (scaleByTen 4 significand.toUInt64.toFloat exponent).map fun x => if positive then x else -x

/-- The number whose text ends here, as a double. -/
def endDouble (positive : Bool) (significand : Nat) (exponent : Int) (cs : List Char) :
    Except Stop (Number × Rest cs) :=
  match doubleOf positive significand exponent with
  | some x => .ok (.real x, ⟨cs, Nat.le_refl _⟩)
  | none => stopAt .numberOutOfRange cs 0

/-- The number whose text ends here, as an integer if it is one of 64 bits; a negative zero is a
double. -/
def endInteger (positive : Bool) (significand : Nat) : Number :=
  if positive then .natural significand.toUInt64
  else if 0 < significand ∧ significand ≤ 1 <<< 63 then .negative (Int64.ofInt (-significand))
  else .real (-significand.toUInt64.toFloat)

/-- Digits of an exponent, up to the one that makes it exceed 32 bits with a sign. -/
def readExponentDigits (exponent : Nat) : (cs : List Char) → Option Nat × Rest cs
  | [] => (some exponent, ⟨[], Nat.le_refl _⟩)
  | c :: cs =>
    if c.isDigit then
      let longer := exponent * 10 + digitValue c
      if longer < 1 <<< 31 then
        let (all, ⟨rest, h⟩) := readExponentDigits longer cs
        (all, ⟨rest, Nat.le_succ_of_le h⟩)
      else (none, ⟨cs, Nat.le_succ _⟩)
    else (some exponent, ⟨c :: cs, Nat.le_refl _⟩)

/-- Reads the digits of an exponent, which makes the number grow or shrink, and ends the number. -/
def readPower (positive : Bool) (significand : Nat) (scale : Int) (grows : Bool) (cs : List Char) :
    Except Stop (Number × Rest cs) :=
  match cs with
  | [] => stopAt .endInValue [] 0
  | c :: rest =>
    if c.isDigit then
      match readExponentDigits (digitValue c) rest with
      | (some exponent, ⟨after, ha⟩) => do
        let total := if grows then scale + exponent else scale - exponent
        let (number, ⟨last, hl⟩) ← endDouble positive significand total after
        .ok (number, ⟨last, Nat.le_succ_of_le (Nat.le_trans hl ha)⟩)
      | (none, ⟨after, ha⟩) =>
        if significand ≠ 0 ∧ grows then stopAt .numberOutOfRange after 0
        else
          .ok (.real (if positive then 0.0 else -0.0), ⟨after.dropWhile Char.isDigit,
            Nat.le_succ_of_le
              (Nat.le_trans (List.dropWhile_suffix Char.isDigit).length_le ha)⟩)
    else stopAt .invalidNumber (c :: rest) 1

/-- Reads what follows the `e` of a number. -/
def readExponent (positive : Bool) (significand : Nat) (scale : Int) (cs : List Char) :
    Except Stop (Number × Rest cs) :=
  match cs with
  | '+' :: rest => do
    let (number, ⟨last, h⟩) ← readPower positive significand scale true rest
    .ok (number, ⟨last, Nat.le_succ_of_le h⟩)
  | '-' :: rest => do
    let (number, ⟨last, h⟩) ← readPower positive significand scale false rest
    .ok (number, ⟨last, Nat.le_succ_of_le h⟩)
  | rest => readPower positive significand scale true rest

/-- Reads an exponent if there is one, and ends the number otherwise. -/
def readScale (positive : Bool) (significand : Nat) (scale : Int) (cs : List Char) :
    Except Stop (Number × Rest cs) :=
  match cs with
  | c :: rest =>
    if c = 'e' ∨ c = 'E' then do
      let (number, ⟨after, h⟩) ← readExponent positive significand scale rest
      .ok (number, ⟨after, Nat.le_succ_of_le h⟩)
    else endDouble positive significand scale (c :: rest)
  | [] => endDouble positive significand scale []

/-- Reads what follows the digits before the point, `dropped` of which did not fit. -/
def readAfterInteger (positive : Bool) (significand dropped : Nat) (cs : List Char) :
    Except Stop (Number × Rest cs) :=
  match cs with
  | '.' :: rest =>
    let digits := rest.takeWhile Char.isDigit
    let after := rest.dropWhile Char.isDigit
    if digits.isEmpty then
      if rest.isEmpty then stopAt .endInValue [] 0 else stopAtNext .invalidNumber rest
    else do
      let (longer, used) := fitDigits significand digits
      let (number, ⟨last, h⟩) ← readScale positive longer ((dropped : Int) - used) after
      .ok (number, ⟨last, by
        have : after.length ≤ rest.length := (List.dropWhile_suffix Char.isDigit).length_le
        simp only [List.length_cons]; omega⟩)
  | c :: rest =>
    if c = 'e' ∨ c = 'E' ∨ 0 < dropped then readScale positive significand dropped (c :: rest)
    else .ok (endInteger positive significand, ⟨c :: rest, Nat.le_refl _⟩)
  | [] =>
    if 0 < dropped then readScale positive significand dropped []
    else .ok (endInteger positive significand, ⟨[], Nat.le_refl _⟩)

/-- Reads a number after its sign; a leading zero stands alone before the point. -/
def readDigits (positive : Bool) (cs : List Char) : Except Stop (Number × Shorter cs) :=
  match cs with
  | [] => stopAt .endInValue [] 0
  | c :: rest =>
    if c = '0' then
      match rest with
      | d :: more =>
        if d.isDigit then stopAt .invalidNumber (d :: more) 1
        else do
          let (number, ⟨last, h⟩) ← readAfterInteger positive 0 0 (d :: more)
          .ok (number, ⟨last, Nat.lt_succ_of_le h⟩)
      | [] => do
        let (number, ⟨last, h⟩) ← readAfterInteger positive 0 0 []
        .ok (number, ⟨last, Nat.lt_succ_of_le h⟩)
    else if c.isDigit then do
      let digits := rest.takeWhile Char.isDigit
      let (significand, used) := fitDigits (digitValue c) digits
      let (number, ⟨last, h⟩) ←
        readAfterInteger positive significand (digits.length - used) (rest.dropWhile Char.isDigit)
      .ok (number, ⟨last, by
        have : (rest.dropWhile Char.isDigit).length ≤ rest.length :=
          (List.dropWhile_suffix Char.isDigit).length_le
        simp only [List.length_cons]; omega⟩)
    else stopAt .invalidNumber (c :: rest) 1

/-! ### Strings -/

/-- Reads the four digits of a `\u` escape. -/
def readHex (cs : List Char) : Except Stop (Nat × Shorter cs) :=
  if byteLength (cs.take 4) < 4 then stopAt .endInString [] 0
  else match cs with
    | a :: b :: c :: d :: rest =>
      match Numeral.number? 16 [a, b, c, d] with
      | some unit => .ok (unit, ⟨rest, by simp only [List.length_cons]; omega⟩)
      | none => stopAt .invalidEscape (a :: b :: c :: d :: rest) 4
    | cs => stopAt .invalidEscape cs 4

/-- Reads the second half of a character written as two `\u` escapes. -/
def readLowSurrogate (high : Nat) (cs : List Char) : Except Stop (Char × Rest cs) :=
  match cs with
  | '\\' :: 'u' :: rest => do
    let (low, ⟨last, h⟩) ← readHex rest
    if 0xDC00 ≤ low ∧ low ≤ 0xDFFF then
      .ok (Char.ofNat ((high - 0xD800) * 0x400 + (low - 0xDC00) + 0x10000), ⟨last, by
        simp only [List.length_cons]; omega⟩)
    else stopAt .loneSurrogate last 0
  | '\\' :: c :: rest => stopAt .hexEscapeEnds (c :: rest) 1
  | ['\\'] => stopAt .endInString [] 0
  | c :: rest => stopAt .hexEscapeEnds (c :: rest) 1
  | [] => stopAt .endInString [] 0

/-- Reads an escape after its backslash. -/
def readEscape (cs : List Char) : Except Stop (Char × Shorter cs) :=
  match cs with
  | [] => stopAt .endInString [] 0
  | c :: rest =>
    let here (d : Char) : Except Stop (Char × Shorter (c :: rest)) :=
      .ok (d, ⟨rest, Nat.lt_succ_self _⟩)
    if c = '"' ∨ c = '\\' ∨ c = '/' then here c
    else if c = 'b' then here '\x08'
    else if c = 'f' then here '\x0c'
    else if c = 'n' then here '\n'
    else if c = 'r' then here '\r'
    else if c = 't' then here '\t'
    else if c = 'u' then do
      let (unit, ⟨after, h⟩) ← readHex rest
      if 0xDC00 ≤ unit ∧ unit ≤ 0xDFFF then stopAt .loneSurrogate after 0
      else if 0xD800 ≤ unit ∧ unit ≤ 0xDBFF then do
        let (full, ⟨last, hl⟩) ← readLowSurrogate unit after
        .ok (full, ⟨last, by simp only [List.length_cons]; omega⟩)
      else .ok (Char.ofNat unit, ⟨after, by simp only [List.length_cons]; omega⟩)
    else stopAt .invalidEscape (c :: rest) 1

/-- Reads a string after its opening quote. -/
def readString (cs : List Char) : Except Stop (List Char × Shorter cs) :=
  match cs with
  | [] => stopAt .endInString [] 0
  | c :: rest =>
    if c = '"' then .ok ([], ⟨rest, Nat.lt_succ_self _⟩)
    else if c = '\\' then
      match readEscape rest with
      | .error stop => .error stop
      | .ok (d, ⟨after, h⟩) =>
        match readString after with
        | .error stop => .error stop
        | .ok (ds, ⟨last, hl⟩) => .ok (d :: ds, ⟨last, by simp only [List.length_cons]; omega⟩)
    else if c.toNat < 0x20 then stopAt .controlCharacter (c :: rest) 1
    else
      match readString rest with
      | .error stop => .error stop
      | .ok (ds, ⟨last, hl⟩) => .ok (c :: ds, ⟨last, by simp only [List.length_cons]; omega⟩)
termination_by cs.length
decreasing_by
  · simp only [List.length_cons]; omega
  · simp only [List.length_cons]; omega

/-! ### Lists and objects -/

/-- Whether another item of a list follows, and the text it starts with. -/
def nextItem? (first : Bool) (cs : List Char) : Except Stop (Option (Rest cs)) :=
  match h : skipBlanks cs with
  | [] => stopAt .endInList [] 0
  | c :: rest =>
    have hc : (c :: rest).length ≤ cs.length := length_le_of_skipBlanks h
    if c = ']' then .ok none
    else if first then .ok (some ⟨c :: rest, hc⟩)
    else if c = ',' then
      match h' : skipBlanks rest with
      | [] => stopAt .endInValue [] 0
      | d :: more =>
        if d = ']' then stopAt .trailingComma (d :: more) 1
        else .ok (some ⟨d :: more, by
          have := skipBlanks_length_le rest
          rw [h'] at this
          simp only [List.length_cons] at hc this ⊢; omega⟩)
    else stopAt .listCommaOrEndExpected (c :: rest) 1

/-- Reads the items of a list up to its closing bracket, which is left in the text. -/
def readItems {α : Type} (item : (cs : List Char) → Except Stop (α × Shorter cs)) (first : Bool)
    (cs : List Char) : Except Stop (List α × Rest cs) :=
  match nextItem? first cs with
  | .error stop => .error stop
  | .ok none => .ok ([], ⟨skipBlanks cs, skipBlanks_length_le cs⟩)
  | .ok (some ⟨start, hs⟩) =>
    match item start with
    | .error stop => .error stop
    | .ok (a, ⟨after, ha⟩) =>
      match readItems item false after with
      | .error stop => .error stop
      | .ok (as, ⟨last, hl⟩) => .ok (a :: as, ⟨last, by omega⟩)
termination_by cs.length

/-- Whether another field of an object follows; if so, the text after the quote of its name. -/
def nextField? (first : Bool) (cs : List Char) : Except Stop (Option (Shorter cs)) :=
  match h : skipBlanks cs with
  | [] => stopAt .endInObject [] 0
  | c :: rest =>
    have hc : (c :: rest).length ≤ cs.length := length_le_of_skipBlanks h
    if c = '}' then .ok none
    else if first then
      if c = '"' then .ok (some ⟨rest, by simp only [List.length_cons] at hc; omega⟩)
      else stopAt .keyNotString (c :: rest) 1
    else if c = ',' then
      match h' : skipBlanks rest with
      | [] => stopAt .endInValue [] 0
      | d :: more =>
        if d = '"' then .ok (some ⟨more, by
          have := skipBlanks_length_le rest
          rw [h'] at this
          simp only [List.length_cons] at hc this ⊢; omega⟩)
        else if d = '}' then stopAt .trailingComma (d :: more) 1
        else stopAt .keyNotString (d :: more) 1
    else stopAt .objectCommaOrEndExpected (c :: rest) 1

/-- Reads the colon between a name and its value. -/
def readColon (cs : List Char) : Except Stop (Shorter cs) :=
  match h : skipBlanks cs with
  | [] => stopAt .endInObject [] 0
  | c :: rest =>
    if c = ':' then .ok ⟨rest, by
      have := skipBlanks_length_le cs
      rw [h] at this
      simp only [List.length_cons] at this; omega⟩
    else stopAt .colonExpected (c :: rest) 1

/-- Reads the fields of an object up to its closing brace, which is left in the text. -/
def readFields {α : Type} (item : (cs : List Char) → Except Stop (α × Shorter cs)) (first : Bool)
    (cs : List Char) : Except Stop (List (String × α) × Rest cs) :=
  match nextField? first cs with
  | .error stop => .error stop
  | .ok none => .ok ([], ⟨skipBlanks cs, skipBlanks_length_le cs⟩)
  | .ok (some ⟨name, hn⟩) =>
    match readString name with
    | .error stop => .error stop
    | .ok (key, ⟨colon, hk⟩) =>
      match readColon colon with
      | .error stop => .error stop
      | .ok ⟨start, hs⟩ =>
        match item start with
        | .error stop => .error stop
        | .ok (a, ⟨after, ha⟩) =>
          match readFields item false after with
          | .error stop => .error stop
          | .ok (fields, ⟨last, hl⟩) =>
            .ok ((String.ofList key, a) :: fields, ⟨last, by omega⟩)
termination_by cs.length

/-! ### Values -/

/-- Lists and objects may be nested this deep. -/
def nestingLimit : Nat := 127

/-- What is left after the bracket or brace that closes a value opened in front of `cs`. -/
def closed {cs : List Char} (rest : Rest cs) : Rest cs :=
  ⟨rest.1.drop 1, by have := rest.2; simp only [List.length_drop]; omega⟩

/-- Reads a value whose lists and objects are nested at most `limit` deep. -/
def readValue (limit : Nat) (cs : List Char) : Except Stop (Value × Shorter cs) :=
  match h : skipBlanks cs with
  | [] => stopAt .endInValue [] 0
  | c :: rest =>
    have hc : rest.length < cs.length := length_lt_of_skipBlanks h
    let word (letters : List Char) (v : Value) : Except Stop (Value × Shorter cs) := do
      let ⟨last, hl⟩ ← readWord letters rest
      .ok (v, ⟨last, by omega⟩)
    if c = 'n' then word ['u', 'l', 'l'] .null
    else if c = 't' then word ['r', 'u', 'e'] (.bool true)
    else if c = 'f' then word ['a', 'l', 's', 'e'] (.bool false)
    else if c = '-' then do
      let (number, ⟨last, hl⟩) ← readDigits false rest
      .ok (.number number, ⟨last, by omega⟩)
    else if c.isDigit then do
      let (number, ⟨last, hl⟩) ← readDigits true (c :: rest)
      .ok (.number number, ⟨last, by simp only [List.length_cons] at hl; omega⟩)
    else if c = '"' then do
      let (s, ⟨last, hl⟩) ← readString rest
      .ok (.text (String.ofList s), ⟨last, by omega⟩)
    else if c = '[' then
      match limit with
      | 0 => stopAt .tooDeep (c :: rest) 1
      | limit + 1 => do
        let (items, last) ← readItems (readValue limit) true rest
        let ⟨last, hl⟩ := closed last
        .ok (.list items, ⟨last, by omega⟩)
    else if c = '{' then
      match limit with
      | 0 => stopAt .tooDeep (c :: rest) 1
      | limit + 1 => do
        let (fields, last) ← readFields (readValue limit) true rest
        let ⟨last, hl⟩ := closed last
        .ok (.object (fields.foldl (fun o (k, v) => putField k v o) []), ⟨last, by omega⟩)
    else stopAt .valueExpected (c :: rest) 1

/-- Nothing but blanks may follow a value. -/
def readEnd (cs : List Char) : Except Stop Unit :=
  match skipBlanks cs with
  | [] => .ok ()
  | c :: rest => stopAt .trailingCharacters (c :: rest) 1

/-- A whole text read in one way, or its first fault. -/
def wholeText {α : Type} (read : (cs : List Char) → Except Stop (α × Shorter cs))
    (text : List Char) : Except Fault α :=
  match read text with
  | .error stop => .error (stop.inText text)
  | .ok (a, ⟨rest, _⟩) =>
    match readEnd rest with
    | .error stop => .error (stop.inText text)
    | .ok () => .ok a

/-- A whole text as a value, or its first fault. -/
def Value.ofText (text : List Char) : Except Fault Value :=
  wholeText (readValue nestingLimit) text

/-! ### Reading past values

A value that nobody asks for is not built, only passed over.  Its lists and objects may be nested
as deep as they like, because the open ones are kept in a list instead of being recursed into, and
what an escape stands for is not looked at. -/

/-- An open list or object. -/
inductive Enclosing where
  | list
  | object
  deriving DecidableEq, Repr

/-- What closes it. -/
def Enclosing.close : Enclosing → Char
  | .list => ']'
  | .object => '}'

/-- The text ends inside it. -/
def Enclosing.ended : Enclosing → Issue
  | .list => .endInList
  | .object => .endInObject

/-- Something else stands where a comma or its end was expected. -/
def Enclosing.unclosed : Enclosing → Issue
  | .list => .listCommaOrEndExpected
  | .object => .objectCommaOrEndExpected

/-! #### Numbers and strings -/

/-- Past a run of digits. -/
def skipDigits (cs : List Char) : Rest cs :=
  ⟨cs.dropWhile Char.isDigit, (List.dropWhile_suffix Char.isDigit).length_le⟩

/-- Stops behind the next character of a text, or at its end. -/
def stopPast {α : Type} (issue : Issue) (cs : List Char) : Except Stop α :=
  match cs with
  | [] => stopAt issue [] 0
  | c :: rest => stopAt issue (c :: rest) 1

/-- Past an exponent, after its `e`. -/
def skipExponent (cs : List Char) : Except Stop (Rest cs) :=
  let ⟨digits, h⟩ : Rest cs := match cs with
    | '+' :: rest => ⟨rest, Nat.le_succ _⟩
    | '-' :: rest => ⟨rest, Nat.le_succ _⟩
    | rest => ⟨rest, Nat.le_refl _⟩
  if digits.head?.any Char.isDigit then
    let ⟨last, hl⟩ := skipDigits digits
    .ok ⟨last, by omega⟩
  else stopPast .invalidNumber digits

/-- Past an exponent, if there is one. -/
def skipScale (cs : List Char) : Except Stop (Rest cs) :=
  match cs with
  | c :: rest =>
    if c = 'e' ∨ c = 'E' then do
      let ⟨last, h⟩ ← skipExponent rest
      .ok ⟨last, Nat.le_succ_of_le h⟩
    else .ok ⟨c :: rest, Nat.le_refl _⟩
  | [] => .ok ⟨[], Nat.le_refl _⟩

/-- Past what follows the digits in front of the point. -/
def skipFraction (cs : List Char) : Except Stop (Rest cs) :=
  match cs with
  | '.' :: rest =>
    if rest.head?.any Char.isDigit then do
      let ⟨after, ha⟩ := skipDigits rest
      let ⟨last, hl⟩ ← skipScale after
      .ok ⟨last, by simp only [List.length_cons]; omega⟩
    else stopPast .invalidNumber rest
  | rest => skipScale rest

/-- Past a number, after its sign. -/
def skipNumber (cs : List Char) : Except Stop (Shorter cs) :=
  match cs with
  | [] => stopAt .invalidNumber [] 0
  | c :: rest =>
    if c = '0' then
      if rest.head?.any Char.isDigit then stopPast .invalidNumber rest
      else do
        let ⟨last, h⟩ ← skipFraction rest
        .ok ⟨last, Nat.lt_succ_of_le h⟩
    else if c.isDigit then do
      let ⟨after, ha⟩ := skipDigits rest
      let ⟨last, hl⟩ ← skipFraction after
      .ok ⟨last, by simp only [List.length_cons]; omega⟩
    else stopAt .invalidNumber (c :: rest) 1

/-- Past an escape, after its backslash. -/
def skipEscape (cs : List Char) : Except Stop (Shorter cs) :=
  match cs with
  | [] => stopAt .endInString [] 0
  | c :: rest =>
    if c = 'u' then do
      let (_, ⟨last, h⟩) ← readHex rest
      .ok ⟨last, by simp only [List.length_cons]; omega⟩
    else if "\"\\/bfnrt".toList.contains c then .ok ⟨rest, Nat.lt_succ_self _⟩
    else stopAt .invalidEscape (c :: rest) 1

/-- Past a string, after its opening quote. -/
def skipString (cs : List Char) : Except Stop (Shorter cs) :=
  match cs with
  | [] => stopAt .endInString [] 0
  | c :: rest =>
    if c = '"' then .ok ⟨rest, Nat.lt_succ_self _⟩
    else if c = '\\' then
      match skipEscape rest with
      | .error stop => .error stop
      | .ok ⟨after, h⟩ =>
        match skipString after with
        | .error stop => .error stop
        | .ok ⟨last, hl⟩ => .ok ⟨last, by simp only [List.length_cons]; omega⟩
    else if c.toNat < 0x20 then stopAt .controlCharacter (c :: rest) 0
    else
      match skipString rest with
      | .error stop => .error stop
      | .ok ⟨last, hl⟩ => .ok ⟨last, by simp only [List.length_cons]; omega⟩
termination_by cs.length
decreasing_by
  · simp only [List.length_cons]; omega
  · simp only [List.length_cons]; omega

/-! #### Values -/

theorem twice_succ_lt {m n : Nat} (h : m < n) : 2 * m + 1 < 2 * n := by omega

/-- Past the name of a field and its colon. -/
def skipName (cs : List Char) : Except Stop (Shorter cs) :=
  match h : skipBlanks cs with
  | [] => stopAt .endInObject [] 0
  | c :: rest =>
    have hc : rest.length < cs.length := length_lt_of_skipBlanks h
    if c = '"' then do
      let ⟨colon, hk⟩ ← skipString rest
      let ⟨last, hl⟩ ← readColon colon
      .ok ⟨last, by omega⟩
    else stopAt .keyNotString (c :: rest) 1

/-- Past a value that opens nothing, whose first character is given. -/
def skipSimple (c : Char) (rest : List Char) : Except Stop (Rest rest) :=
  if c = 'n' then readWord ['u', 'l', 'l'] rest
  else if c = 't' then readWord ['r', 'u', 'e'] rest
  else if c = 'f' then readWord ['a', 'l', 's', 'e'] rest
  else if c = '-' then do
    let ⟨last, h⟩ ← skipNumber rest
    .ok ⟨last, Nat.le_of_lt h⟩
  else if c.isDigit then do
    let ⟨last, h⟩ ← skipNumber (c :: rest)
    .ok ⟨last, Nat.le_of_lt_succ h⟩
  else if c = '"' then do
    let ⟨last, h⟩ ← skipString rest
    .ok ⟨last, Nat.le_of_lt h⟩
  else stopAt .valueExpected (c :: rest) 1

mutual

/-- Past a value and all that is open around it, innermost first. -/
def skipInside (enclosing : List Enclosing) (cs : List Char) : Except Stop (Rest cs) :=
  match h : skipBlanks cs with
  | [] => stopAt .endInValue [] 0
  | c :: rest =>
    have hc : rest.length < cs.length := length_lt_of_skipBlanks h
    if c = '[' ∨ c = '{' then
      match skipRest ((if c = '[' then .list else .object) :: enclosing) false rest with
      | .error stop => .error stop
      | .ok ⟨last, hl⟩ => .ok ⟨last, by omega⟩
    else
      match skipSimple c rest with
      | .error stop => .error stop
      | .ok ⟨after, ha⟩ =>
        match skipRest enclosing true after with
        | .error stop => .error stop
        | .ok ⟨last, hl⟩ => .ok ⟨last, by omega⟩
termination_by 2 * cs.length
decreasing_by
  · exact twice_succ_lt hc
  · exact twice_succ_lt (Nat.lt_of_le_of_lt ha hc)

/-- Past the rest of what is open; `comma` says that a value stands in front. -/
def skipRest (enclosing : List Enclosing) (comma : Bool) (cs : List Char) :
    Except Stop (Rest cs) :=
  match enclosing with
  | [] => .ok ⟨cs, Nat.le_refl _⟩
  | e :: outer =>
    match h : skipBlanks cs with
    | [] => stopAt e.ended [] 0
    | c :: rest =>
      have hc : (c :: rest).length ≤ cs.length := length_le_of_skipBlanks h
      have hr : rest.length < cs.length := length_lt_of_skipBlanks h
      if c = e.close then
        match skipRest outer true rest with
        | .error stop => .error stop
        | .ok ⟨last, hl⟩ => .ok ⟨last, by omega⟩
      else if comma && c ≠ ',' then stopAt e.unclosed (c :: rest) 1
      else
        let ⟨entry, he⟩ : { t : List Char // t.length ≤ cs.length } :=
          if comma then ⟨rest, by omega⟩ else ⟨c :: rest, hc⟩
        match e with
        | .list =>
          match skipInside (.list :: outer) entry with
          | .error stop => .error stop
          | .ok ⟨last, hl⟩ => .ok ⟨last, by omega⟩
        | .object =>
          match skipName entry with
          | .error stop => .error stop
          | .ok ⟨value, hv⟩ =>
            match skipInside (.object :: outer) value with
            | .error stop => .error stop
            | .ok ⟨last, hl⟩ => .ok ⟨last, by omega⟩
termination_by 2 * cs.length + 1
decreasing_by
  · exact Nat.succ_lt_succ (Nat.lt_of_succ_lt (twice_succ_lt hr))
  · exact Nat.lt_succ_of_le (Nat.mul_le_mul_left 2 he)
  · exact Nat.lt_succ_of_le (Nat.mul_le_mul_left 2 (Nat.le_trans (Nat.le_of_lt hv) he))

end

/-- Past a value. -/
def skipValue (cs : List Char) : Except Stop (Rest cs) := skipInside [] cs

end Lightshow.Json
