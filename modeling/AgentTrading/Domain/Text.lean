import Mathlib.Data.List.Infix

/-! Text operations of the source language, as far as a comparison with ASCII text or
a message built from them can tell. -/
namespace AgentTrading.Domain

/-- An empty text counts as absent: `x or d`. -/
def orText (x : Option String) (d : String) : String :=
  match x with
  | some s => if s = "" then d else s
  | none => d

/-- Truthiness of an optional text. -/
def truthy (x : Option String) : Bool :=
  match x with
  | some s => s ≠ ""
  | none => false

/-- The characters outside ASCII whose upper case is ASCII text. -/
def upperChar (c : Char) : String :=
  match c.toNat with
  | 0x131 => "I"
  | 0x17F => "S"
  | 0xDF => "SS"
  | 0xFB00 => "FF"
  | 0xFB01 => "FI"
  | 0xFB02 => "FL"
  | 0xFB03 => "FFI"
  | 0xFB04 => "FFL"
  | 0xFB05 => "ST"
  | 0xFB06 => "ST"
  | _ => c.toUpper.toString

def upper (s : String) : String := s.toList.foldl (fun acc c => acc ++ upperChar c) ""

/-- The one character outside ASCII whose lower case is a single ASCII letter is the
Kelvin sign. -/
def lowerChar (c : Char) : Char :=
  if c.toNat = 0x212A then 'k' else c.toLower

def lower (s : String) : String := String.ofList (s.toList.map lowerChar)

/-- `sub in s`. -/
def containsText (s sub : List Char) : Bool := decide (sub <:+: s)

def hexDigit (n : Nat) : Char :=
  if n < 10 then Char.ofNat (48 + n) else Char.ofNat (87 + n)

/-- The lowest `width` hexadecimal digits of `n`. -/
def hex : Nat → Nat → List Char
  | 0, _ => []
  | width + 1, n => hex width (n / 16) ++ [hexDigit (n % 16)]

end AgentTrading.Domain
