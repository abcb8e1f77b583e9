/-
Script text rewritten into JSON.

A script is JSON with conveniences: a separator after the last command, two-digit hexadecimal
parameters, line comments, single quotes, and braces for brackets.  `ScriptText.normalize` takes
them away one after the other, in an order that matters: the last comma is dropped while the
comments still stand, so that a comma in a final comment is the one that goes.
-/
import Lightshow.Json.Reader

namespace Lightshow.ScriptText

/-- The text without its last comma. -/
def dropLastComma (cs : List Char) : List Char := (cs.reverse.erase ',').reverse

/-- Replaces every `0x` and the two hexadecimal digits behind it by the decimal number. -/
def decimalHex : List Char → List Char
  | '0' :: 'x' :: a :: b :: rest =>
    match Numeral.number? 16 [a, b] with
    | some n => Nat.toDigits 10 n ++ decimalHex rest
    | none => '0' :: decimalHex ('x' :: a :: b :: rest)
  | c :: rest => c :: decimalHex rest
  | [] => []

/-- Drops every `//` and what follows it on its line; `inside` says that a comment has begun. -/
def dropComments (inside : Bool) : List Char → List Char
  | [] => []
  | '\n' :: rest => '\n' :: dropComments false rest
  | '/' :: '/' :: rest => dropComments true rest
  | c :: rest => if inside then dropComments true rest else c :: dropComments false rest

/-- Single quotes become double ones, and braces become brackets. -/
def strictMark (c : Char) : Char :=
  if c = '\'' then '"' else if c = '{' then '[' else if c = '}' then ']' else c

/-- Name of the field that holds the commands. -/
def dataField : String := "data"

/-- The text as the value of the field, before any rewriting. -/
def wrapped (raw : List Char) : List Char :=
  ("\"" ++ dataField ++ "\": [ ").toList ++ raw ++ " ]".toList

/-- The rewriting without the braces around it. -/
def rewritten (cs : List Char) : List Char :=
  (dropComments false (decimalHex (dropLastComma cs))).map strictMark

/-- Script text as a JSON object with the commands under `dataField`. -/
def normalize (raw : String) : String :=
  String.ofList ('{' :: ' ' :: rewritten (wrapped raw.toList) ++ [' ', '}'])

end Lightshow.ScriptText
