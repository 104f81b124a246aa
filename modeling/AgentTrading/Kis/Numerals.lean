import AgentTrading.Kis.Json

/-! Which characters the source language takes for digits, and decimals that keep the digits of
their texts. -/
namespace AgentTrading.Kis
open Domain

/-- Digits that stand in no numeral, such as superscripts, from the first to the last of a row. -/
def specialDigits : List (Nat × Nat) :=
  [(0xB2, 0xB3), (0xB9, 0xB9), (0x1369, 0x1371), (0x19DA, 0x19DA), (0x2070, 0x2070),
    (0x2074, 0x2079), (0x2080, 0x2089), (0x2460, 0x2468), (0x2474, 0x247C), (0x2488, 0x2490),
    (0x24EA, 0x24EA), (0x24F5, 0x24FD), (0x24FF, 0x24FF), (0x2776, 0x277E), (0x2780, 0x2788),
    (0x278A, 0x2792), (0x10A40, 0x10A43), (0x10E60, 0x10E68), (0x11052, 0x1105A),
    (0x1F100, 0x1F10A)]

/-- `c.isdigit()`. -/
def isDigit (c : Char) : Bool :=
  (decimalValue c).isSome || specialDigits.any fun row => row.1 ≤ c.toNat && c.toNat ≤ row.2

/-- `int(s)` for a text of digits. -/
def intOfDigits (s : List Char) : Except PyError Nat :=
  match s.mapM decimalValue with
  | some ds => .ok (number ds)
  | none => .error (.other "ValueError")

/-- A decimal as a text gives it. -/
inductive Decimal where
  | finite (negative : Bool) (coefficient : Nat) (exponent : Int)
  | infinity (negative : Bool)
  | nan (negative signaling : Bool) (payload : Nat)
  deriving DecidableEq

namespace Decimal

def zero : Decimal := finite false 0 0

/-- `bool(d)`. -/
def truthy : Decimal → Bool
  | finite _ coefficient _ => coefficient ≠ 0
  | _ => true

def value : Decimal → Dec
  | finite negative coefficient exponent =>
    .finite ((if negative then -1 else 1) * coefficient * (10 : ℚ) ^ exponent)
  | infinity negative => .infinity negative
  | nan _ true _ => .snan
  | nan _ false _ => .nan

/-- The digits with a point before the given place. -/
def pointed (ds : List Char) (place : Int) : List Char :=
  if place ≤ 0 then '0' :: '.' :: (List.replicate (-place).toNat '0' ++ ds)
  else if ds.length ≤ place then ds ++ List.replicate (place - ds.length).toNat '0'
  else ds.take place.toNat ++ '.' :: ds.drop place.toNat

/-- `str(d)`: plain where the exponent is not positive and the point close, else in scientific
notation. -/
def text : Decimal → String
  | finite negative coefficient exponent =>
    let ds := (toString coefficient).toList
    let left : Int := exponent + ds.length
    let body :=
      if exponent ≤ 0 ∧ -6 < left then String.ofList (pointed ds left)
      else String.ofList (pointed ds 1) ++ "E" ++ (if 0 ≤ left - 1 then "+" else "") ++
        toString (left - 1)
    (if negative then "-" else "") ++ body
  | infinity negative => if negative then "-Infinity" else "Infinity"
  | nan negative signaling payload =>
    (if negative then "-" else "") ++ (if signaling then "sNaN" else "NaN") ++
      if payload = 0 then "" else toString payload

/-- The text of a numeral in lower case, without blanks around it and without underscores. -/
def normalized (s : String) : List Char := ((strip s.toList).filter (· ≠ '_')).map lowerChar

/-- The digits and the exponent of a numeral after its sign. -/
def finiteParts (cs : List Char) : Option (List Nat × Int) := do
  let (mantissa, exponent) := cs.span (· ≠ 'e')
  let (whole, fraction) := mantissa.span (· ≠ '.')
  let fraction := fraction.drop 1
  let digits ← plainDigits (whole ++ fraction)
  let exponent ← match exponent with
    | [] => some 0
    | _ :: cs => exponentOf cs
  if digits.isEmpty then none else some (digits, exponent - fraction.length)

/-- The exponents that a decimal can have. -/
def withinLimits (coefficient : Nat) (exponent : Int) : Bool :=
  -1999999999999999997 ≤ exponent &&
    exponent + (toString coefficient).length - 1 ≤ 999999999999999999

/-- Whether the sign is a minus, and what follows it. -/
def signOf : List Char → Bool × List Char
  | '-' :: cs => (true, cs)
  | '+' :: cs => (false, cs)
  | cs => (false, cs)

def ofNumeral (cs : List Char) : Option Decimal :=
  let (negative, cs) := signOf cs
  match cs with
  | 'n' :: 'a' :: 'n' :: payload => (plainDigits payload).map fun ds =>
    nan negative false (number ds)
  | 's' :: 'n' :: 'a' :: 'n' :: payload =>
    (plainDigits payload).map fun ds => nan negative true (number ds)
  | cs =>
    if cs = "inf".toList ∨ cs = "infinity".toList then some (infinity negative)
    else do
      let (ds, exponent) ← finiteParts cs
      if withinLimits (number ds) exponent then some (finite negative (number ds) exponent)
      else none

/-- `Decimal(s)`, absent where it raises. -/
def parse (s : String) : Option Decimal := ofNumeral (normalized s)

/-! The value that a text has for the other readers of responses. -/

theorem finiteNumeral_eq (negative : Bool) (cs : List Char) :
    finiteNumeral negative cs = (finiteParts cs).map fun parts =>
      scaled negative parts.1 parts.2 := by
  unfold finiteNumeral finiteParts
  simp only [Option.bind_eq_bind]
  cases plainDigits _ with
  | none => rfl
  | some ds =>
    simp only [Option.bind_some]
    cases (cs.span (· ≠ 'e')).2 with
    | nil =>
      dsimp only
      split <;> rfl
    | cons c cs =>
      dsimp only
      cases exponentOf cs with
      | none => rfl
      | some exponent =>
        simp only [Option.bind_some]
        split <;> rfl

theorem decimalNumeral_of_ofNumeral {cs : List Char} {d : Decimal} (h : ofNumeral cs = some d) :
    decimalNumeral cs = some d.value := by
  have hsigned : decimalNumeral cs = match (signOf cs).2 with
      | 'n' :: 'a' :: 'n' :: payload => (plainDigits payload).map fun _ => Dec.nan
      | 's' :: 'n' :: 'a' :: 'n' :: payload => (plainDigits payload).map fun _ => Dec.snan
      | rest => if rest = "inf".toList ∨ rest = "infinity".toList then
          some (Dec.infinity (signOf cs).1)
        else finiteNumeral (signOf cs).1 rest := rfl
  rw [hsigned]
  unfold ofNumeral at h
  generalize signOf cs = signed at h ⊢
  obtain ⟨negative, cs⟩ := signed
  dsimp only at h ⊢
  split at h
  next payload =>
    obtain ⟨ds, hds, rfl⟩ := Option.map_eq_some_iff.mp h
    rw [hds]
    rfl
  next payload =>
    obtain ⟨ds, hds, rfl⟩ := Option.map_eq_some_iff.mp h
    rw [hds]
    rfl
  next =>
    split
    next hinfinity =>
      rw [if_pos hinfinity] at h
      cases h
      rfl
    next hinfinity =>
      rw [if_neg hinfinity] at h
      rw [finiteNumeral_eq]
      obtain ⟨parts, hparts, h⟩ := Option.bind_eq_some_iff.mp h
      rw [hparts]
      split at h
      next =>
        cases h
        rfl
      next => cases h

theorem parseDecimal_of_parse {s : String} {d : Decimal} (h : parse s = some d) :
    parseDecimal s = .ok d.value := by
  unfold parse normalized at h
  rw [parseDecimal, decimalNumeral_of_ofNumeral h]

end Decimal

example : (Decimal.parse "1_234.50").map Decimal.text = some "1234.50" := by decide +kernel

example : (Decimal.parse " -1e7 ").map Decimal.text = some "-1E+7" := by decide +kernel

end AgentTrading.Kis
