/-
Addresses of the web.

An address is taken apart the lenient way that browsers agree on: blanks around it and line breaks
in it do not count, backslashes are slashes, a path with dots is walked, and what may not stand in
it is encoded.  Its parts are then written in one way only.

* `Url.parse?` -- the address that a text means, if it means one;
* `Url.text` -- the address written out;
* `Url.target` -- what is asked of its host: path and query.
-/
import Lightshow.Web.Host

namespace Lightshow.Web

/-- An address of the web. -/
structure Url where
  secure : Bool
  host : Host
  /-- The port, unless it is the usual one. -/
  port : Option Nat
  /-- The steps of the path. -/
  path : List String
  query : Option String
  fragment : Option String
  deriving DecidableEq, Repr

namespace Url

/-- Start of an address that is not secure. -/
def plainStart : String := "http://"

/-- Start of a secure address. -/
def secureStart : String := "https://"

/-! ### Taking apart -/

/-- Slashes of either kind separate the steps of a path. -/
def isSlash (c : Char) : Bool := c = '/' || c = '\\'

/-- What ends the host and its port. -/
def endsAuthority (c : Char) : Bool := isSlash c || c = '?' || c = '#'

/-- The text without the blanks around it and without tabs and line breaks. -/
def cleaned (cs : List Char) : List Char :=
  let isEdge (c : Char) : Bool := c.toNat ≤ 0x20
  (((cs.dropWhile isEdge).reverse.dropWhile isEdge).reverse).filter fun c =>
    c ≠ '\t' && c ≠ '\n' && c ≠ '\r'

/-- The part behind the last `@`; who asks does not matter for where the address leads. -/
def behindAt (cs : List Char) : List Char := (Host.split '@' cs).getLast?.getD []

/-- The text up to the first colon outside brackets, and the text behind it. -/
def splitPort (inside : Bool) : List Char → List Char × Option (List Char)
  | [] => ([], none)
  | c :: rest =>
    if c = ':' ∧ !inside then ([], some rest)
    else
      let inside := if c = '[' then true else if c = ']' then false else inside
      let (host, port) := splitPort inside rest
      (c :: host, port)

/-- The port that digits name; the usual one and none at all are left out. -/
def port? (secure : Bool) (digits : List Char) : Option (Option Nat) :=
  if digits.all Char.isDigit then
    match Numeral.number? 10 digits with
    | some n =>
      if 65535 < n then none
      else if digits.isEmpty || n = (if secure then 443 else 80) then some none
      else some (some n)
    | none => none
  else none

/-- A step of a path that stays where it is. -/
def isDot (step : List Char) : Bool := [".", "%2e"].contains (String.ofList (step.map Char.toLower))

/-- A step of a path that goes back. -/
def isDoubleDot (step : List Char) : Bool :=
  ["..", ".%2e", "%2e.", "%2e%2e"].contains (String.ofList (step.map Char.toLower))

/-- Walks the steps of a path: `walked` are those so far, newest first. -/
def walk (walked : List (List Char)) : List (List Char) → List (List Char)
  | [] => walked.reverse
  | [last] =>
    if isDoubleDot last then ([] :: walked.drop 1).reverse
    else if isDot last then ([] :: walked).reverse
    else (last :: walked).reverse
  | step :: rest =>
    if isDoubleDot step then walk (walked.drop 1) rest
    else if isDot step then walk walked rest
    else walk (step :: walked) rest

/-- The steps of a path, encoded. -/
def steps (path : List Char) : List String :=
  let path := path.map fun c => if c = '\\' then '/' else c
  let path := if path.head? = some '/' then path.drop 1 else path
  (walk [] (Host.split '/' path)).map fun step => String.ofList (Percent.encode Percent.inPath step)

/-- A text up to a character, and the text behind it if there is one. -/
def cutAt (x : Char) (cs : List Char) : List Char × Option (List Char) :=
  let before := cs.takeWhile (· ≠ x)
  (before, if before.length < cs.length then some (cs.drop (before.length + 1)) else none)

/-- The address that follows its start. -/
def afterStart? (secure : Bool) (cs : List Char) : Option Url := do
  let cs := cs.dropWhile isSlash
  let (authority, rest) := (cs.takeWhile (!endsAuthority ·), cs.dropWhile (!endsAuthority ·))
  let (host, port) := splitPort false (behindAt authority)
  if host.isEmpty then none
  let host ← Host.parse? host
  let port ← port? secure (port.getD [])
  let (rest, fragment) := cutAt '#' rest
  let (path, query) := cutAt '?' rest
  return {
    secure, host, port
    path := steps path
    query := query.map fun q => String.ofList (Percent.encode Percent.inQuery q)
    fragment := fragment.map fun f => String.ofList (Percent.encode Percent.inFragment f) }

/-- The address that a text means; it has to start with the scheme and two slashes. -/
def parse? (text : String) : Option Url :=
  let cs := cleaned text.toList
  let starts (s : String) : Bool := s.toList.isPrefixOf (cs.map Char.toLower)
  if starts plainStart then afterStart? false (cs.drop plainStart.length)
  else if starts secureStart then afterStart? true (cs.drop secureStart.length)
  else none

/-- Whether the address can be put into a request; some characters of a host name cannot. -/
def isSendable (u : Url) : Bool :=
  match u.host with
  | .name labels => !labels.any fun c => "\"\x60\x7b\x7d".toList.contains c
  | _ => true

/-! ### Writing -/

/-- The path as it is asked for. -/
def pathText (u : Url) : String := String.join (u.path.map ("/" ++ ·))

/-- What is asked of the host: path and query. -/
def target (u : Url) : String :=
  u.pathText ++ (match u.query with
    | some q => "?" ++ q
    | none => "")

/-- The address written out. -/
def text (u : Url) : String :=
  (if u.secure then secureStart else plainStart) ++ u.host.text
    ++ (match u.port with
      | some p => ":" ++ toString p
      | none => "")
    ++ u.target
    ++ (match u.fragment with
      | some f => "#" ++ f
      | none => "")

end Url

end Lightshow.Web
