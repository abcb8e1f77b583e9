/-
Commands, the elements of a script.

A command says what to do with the bulb and how many ticks to wait afterwards.  In a script it is
a list `[delay, [code, parameter, ...]]`, and `Command.ofValue` is the exact condition on such a
list: a delay of 32 bits, a code, and integers of 64 bits, at least as many as the instruction
takes.

* `Instruction.code_ofCode` -- an instruction read from a code is written as that code;
* `Command.ofValue` -- a list as a command, or the first thing that is wrong with it.
-/
import Lightshow.Json.Value

namespace Lightshow

/-- What a command does; a code that means nothing is kept and does nothing. -/
inductive Instruction where
  /-- Sets the time that changes take. -/
  | fade
  /-- Adds to the running time adjustment, or resets it. -/
  | timeAdjust
  /-- Sets hue, saturation and brightness. -/
  | hsb
  /-- Perturbs hue, saturation and brightness. -/
  | hsbJitter
  /-- Sets red, green and blue. -/
  | rgb
  /-- Perturbs red, green and blue. -/
  | rgbJitter
  | unknown (code : String)
  deriving DecidableEq, Repr

namespace Instruction

/-- The instruction that a code stands for. -/
def ofCode (code : String) : Instruction :=
  if code = "f" then .fade
  else if code = "t" then .timeAdjust
  else if code = "h" then .hsb
  else if code = "H" then .hsbJitter
  else if code = "c" then .rgb
  else if code = "C" then .rgbJitter
  else .unknown code

/-- The code of an instruction. -/
def code : Instruction → String
  | .fade => "f"
  | .timeAdjust => "t"
  | .hsb => "h"
  | .hsbJitter => "H"
  | .rgb => "c"
  | .rgbJitter => "C"
  | .unknown code => code

/-- How many parameters an instruction takes. -/
def arity : Instruction → Nat
  | .fade | .timeAdjust => 1
  | .hsb | .hsbJitter | .rgb | .rgbJitter => 3
  | .unknown _ => 0

@[simp] theorem code_ofCode (c : String) : (ofCode c).code = c := by
  simp only [ofCode]
  split <;> (try split) <;> (try split) <;> (try split) <;> (try split) <;> (try split) <;>
    simp_all [code]

end Instruction

/-- An instruction with its parameters, and the ticks to wait after it. -/
structure Command where
  delay : UInt32
  instruction : Instruction
  params : List Int64
  deriving DecidableEq

/-- The parameter at a position; a missing one counts as zero. -/
def Command.param (c : Command) (position : Nat) : Int64 := c.params.getD position 0

/-- What can be wrong with an element of a script. -/
inductive CommandError where
  | notTuple
  | wrongSize (found : Nat)
  | badDelay (found : Json.Value)
  | notList
  | emptyInstruction
  | badCode (found : Json.Value)
  | badParam (found : Json.Value)
  | tooFewParams (instruction : Instruction) (found : Nat)

/-- Wording of what is wrong. -/
def CommandError.message : CommandError → String
  | .notTuple => "expected [delay, [code, ...]]"
  | .wrongSize found => "expected 2 elements, found " ++ toString found
  | .badDelay found => "invalid delay: " ++ found.write
  | .notList => "instruction must be a list"
  | .emptyInstruction => "empty instruction"
  | .badCode found => "invalid code: " ++ found.write
  | .badParam found => "parameter " ++ found.write ++ " is not an integer"
  | .tooFewParams instruction found =>
    "'" ++ instruction.code ++ "' takes " ++ toString instruction.arity ++ " parameters, found "
      ++ toString found

namespace Command

/-- A delay of 32 bits. -/
def delayOf? (v : Json.Value) : Option UInt32 :=
  match v.natural? with
  | some n => if n.toNat < 1 <<< 32 then some n.toUInt32 else none
  | none => none

/-- The parameters of a command, or the first one that is none. -/
def paramsOf : List Json.Value → Except CommandError (List Int64)
  | [] => .ok []
  | v :: rest =>
    match v.integer? with
    | none => .error (.badParam v)
    | some p =>
      match paramsOf rest with
      | .error e => .error e
      | .ok ps => .ok (p :: ps)

/-- The code and the parameters as a command with a given delay. -/
def ofInstruction (delay : UInt32) (data : List Json.Value) : Except CommandError Command :=
  match data with
  | [] => .error .emptyInstruction
  | head :: tail =>
    match head.text? with
    | none => .error (.badCode head)
    | some code =>
      let instruction := Instruction.ofCode code
      match paramsOf tail with
      | .error e => .error e
      | .ok params =>
        if params.length < instruction.arity then
          .error (.tooFewParams instruction params.length)
        else .ok ⟨delay, instruction, params⟩

/-- An element of a script as a command. -/
def ofValue (v : Json.Value) : Except CommandError Command :=
  match v.items? with
  | none => .error .notTuple
  | some [delay, data] =>
    match delayOf? delay with
    | none => .error (.badDelay delay)
    | some ticks =>
      match data.items? with
      | none => .error .notList
      | some parts => ofInstruction ticks parts
  | some items => .error (.wrongSize items.length)

end Command

end Lightshow
