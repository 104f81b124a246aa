import Mathlib.Data.Rat.Defs
import AgentTrading.Domain.Entities

/-! Decoded response bodies, with the operations of the source language on them. A value of
the wrong type raises; only the class of that exception is kept. -/
namespace AgentTrading.Kis
open Domain

/-- A decimal: the exact value of a finite one, or one of the special values. -/
inductive Dec where
  | finite (value : ℚ)
  | infinity (negative : Bool)
  | nan
  | snan
  deriving DecidableEq

/-- `float` holds the exact value of the number and its text. The items of an object are in
the order of its keys, which are distinct. -/
inductive Json where
  | null
  | bool (b : Bool)
  | int (n : Int)
  | float (value : Dec) (text : String)
  | str (s : String)
  | arr (items : List Json)
  | obj (items : List (String × Json))

abbrev Dict := List (String × Json)

def Dict.get (d : Dict) (key : String) (default : Json) : Json := (d.lookup key).getD default

/-- `d[key] = value`. -/
def Dict.set (d : Dict) (key : String) (value : Json) : Dict :=
  match d with
  | [] => [(key, value)]
  | (k, v) :: d => if k = key then (k, value) :: d else (k, v) :: Dict.set d key value

/-- `d[key]`. -/
def Dict.getItem (d : Dict) (key : String) : Except PyError Json :=
  match d.lookup key with
  | some v => .ok v
  | none => .error (.other "KeyError")

namespace Json

def truthy : Json → Bool
  | null => false
  | bool b => b
  | int n => n ≠ 0
  | float (.finite v) _ => v ≠ 0
  | float _ _ => true
  | str s => s ≠ ""
  | arr items => !items.isEmpty
  | obj items => !items.isEmpty

def isNull : Json → Bool
  | null => true
  | _ => false

/-- Equality with a text. -/
def isText (j : Json) (s : String) : Bool :=
  match j with
  | str t => t = s
  | _ => false

def escape (quote c : Char) : String :=
  if c = quote ∨ c = '\\' then String.ofList ['\\', c]
  else if c = '\n' then "\\n"
  else if c = '\r' then "\\r"
  else if c = '\t' then "\\t"
  else if c.toNat < 32 ∨ c.toNat = 127 then "\\x" ++ String.ofList (hex 2 c.toNat)
  else c.toString

/-- `repr` of a text whose characters outside ASCII are printable. -/
def reprText (s : String) : String :=
  let quote := if s.toList.contains '\'' && !s.toList.contains '"' then '"' else '\''
  quote.toString ++ String.join (s.toList.map (escape quote)) ++ quote.toString

mutual

def repr : Json → String
  | null => "None"
  | bool true => "True"
  | bool false => "False"
  | int n => toString n
  | float _ t => t
  | str s => reprText s
  | arr items => "[" ++ String.intercalate ", " (reprItems items) ++ "]"
  | obj items => "\x7b" ++ String.intercalate ", " (reprPairs items) ++ "\x7d"

def reprItems : List Json → List String
  | [] => []
  | j :: js => repr j :: reprItems js

def reprPairs : List (String × Json) → List String
  | [] => []
  | (k, j) :: js => (reprText k ++ ": " ++ repr j) :: reprPairs js

end

/-- `str`. -/
def text : Json → String
  | str s => s
  | j => repr j

/-- `j.get(key, default)`, which only an object has. -/
def get (j : Json) (key : String) (default : Json) : Except PyError Json :=
  match j with
  | obj items => .ok (Dict.get items key default)
  | _ => .error (.other "AttributeError")

/-- `j in codes` for a set of texts: a container is not hashable. -/
def isIn (j : Json) (codes : List String) : Except PyError Bool :=
  match j with
  | arr _ => .error (.other "TypeError")
  | obj _ => .error (.other "TypeError")
  | str s => .ok (s ∈ codes)
  | _ => .ok false

end Json

/-- The zeros of the decimal digits; nine more digits follow each. -/
def decimalZeros : List Nat :=
  [0x30, 0x660, 0x6F0, 0x7C0, 0x966, 0x9E6, 0xA66, 0xAE6, 0xB66, 0xBE6, 0xC66, 0xCE6, 0xD66, 0xDE6,
    0xE50, 0xED0, 0xF20, 0x1040, 0x1090, 0x17E0, 0x1810, 0x1946, 0x19D0, 0x1A80, 0x1A90, 0x1B50,
    0x1BB0, 0x1C40, 0x1C50, 0xA620, 0xA8D0, 0xA900, 0xA9D0, 0xA9F0, 0xAA50, 0xABF0, 0xFF10, 0x104A0,
    0x10D30, 0x10D40, 0x11066, 0x110F0, 0x11136, 0x111D0, 0x112F0, 0x11450, 0x114D0, 0x11650,
    0x116C0, 0x116D0, 0x116DA, 0x11730, 0x118E0, 0x11950, 0x11BF0, 0x11C50, 0x11D50, 0x11DA0,
    0x11F50, 0x16130, 0x16A60, 0x16AC0, 0x16B50, 0x16D70, 0x1CCF0, 0x1D7CE, 0x1D7D8, 0x1D7E2,
    0x1D7EC, 0x1D7F6, 0x1E140, 0x1E2F0, 0x1E4F0, 0x1E5F1, 0x1E950, 0x1FBF0]

/-- The digit that a character stands for in a numeral. -/
def decimalValue (c : Char) : Option Nat :=
  (decimalZeros.find? fun first => first ≤ c.toNat && c.toNat < first + 10).map (c.toNat - ·)

/-- The digits of a decimal numeral, single underscores between them. -/
def digits : List Char → Option (List Nat)
  | [] => none
  | [c] => (decimalValue c).map ([·])
  | c :: '_' :: cs => do
    let d ← decimalValue c
    let ds ← digits cs
    some (d :: ds)
  | c :: cs => do
    let d ← decimalValue c
    let ds ← digits cs
    some (d :: ds)

/-- `c.isspace()`. -/
def isSpace (c : Char) : Bool :=
  c = ' ' || ('\t' ≤ c && c ≤ '\r') || ('\x1c' ≤ c && c ≤ '\x1f') ||
    c.toNat ∈ [0x85, 0xA0, 0x1680, 0x2028, 0x2029, 0x202F, 0x205F, 0x3000] ||
    (0x2000 ≤ c.toNat && c.toNat ≤ 0x200A)

/-- `s.strip()`. -/
def strip (s : List Char) : List Char :=
  ((s.dropWhile isSpace).reverse.dropWhile isSpace).reverse

def number (ds : List Nat) : Nat := ds.foldl (fun n d => 10 * n + d) 0

/-- `int(text)`. -/
def parseInt (s : String) : Except PyError Int :=
  let signed (negative : Bool) (cs : List Char) : Except PyError Int :=
    match digits cs with
    | some ds => .ok (if negative then -(number ds : Int) else number ds)
    | none => .error (.other "ValueError")
  match strip s.toList with
  | '-' :: cs => signed true cs
  | '+' :: cs => signed false cs
  | cs => signed false cs

/-- `int(j)`. -/
def Json.toInt : Json → Except PyError Int
  | bool b => .ok (if b then 1 else 0)
  | int n => .ok n
  | float (.finite v) _ => .ok (v.num.tdiv v.den)
  | float (.infinity _) _ => .error (.other "OverflowError")
  | float _ _ => .error (.other "ValueError")
  | str s => parseInt s
  | null => .error (.other "TypeError")
  | arr _ => .error (.other "TypeError")
  | obj _ => .error (.other "TypeError")

/-- `a < b`, which raises on a NaN. -/
def Dec.less : Dec → Dec → Except PyError Bool
  | finite a, finite b => .ok (a < b)
  | finite _, infinity negative => .ok !negative
  | infinity negative, finite _ => .ok negative
  | infinity a, infinity b => .ok (a && !b)
  | _, _ => .error (.other "InvalidOperation")

/-- `a - b`. -/
def Dec.sub : Dec → Dec → Except PyError Dec
  | snan, _ => .error (.other "InvalidOperation")
  | _, snan => .error (.other "InvalidOperation")
  | nan, _ => .ok nan
  | _, nan => .ok nan
  | finite a, finite b => .ok (finite (a - b))
  | finite _, infinity negative => .ok (infinity !negative)
  | infinity negative, finite _ => .ok (infinity negative)
  | infinity a, infinity b =>
    if a = b then .error (.other "InvalidOperation") else .ok (infinity a)

def scaled (negative : Bool) (digits : List Nat) (exponent : Int) : Dec :=
  .finite ((if negative then -1 else 1) * number digits * (10 : ℚ) ^ exponent)

/-- Plain digits, possibly none. -/
def plainDigits (cs : List Char) : Option (List Nat) := cs.mapM decimalValue

def exponentOf (cs : List Char) : Option Int :=
  let magnitude (ds : List Char) : Option Int :=
    if ds.isEmpty then none else (plainDigits ds).map fun ds => (number ds : Int)
  match cs with
  | '-' :: ds => (magnitude ds).map (- ·)
  | '+' :: ds => magnitude ds
  | ds => magnitude ds

/-- A numeral after its sign: an integer and a fractional part, not both empty, and an
exponent. -/
def finiteNumeral (negative : Bool) (cs : List Char) : Option Dec := do
  let (mantissa, exponent) := cs.span (· ≠ 'e')
  let (whole, fraction) := mantissa.span (· ≠ '.')
  let fraction := fraction.drop 1
  let digits ← plainDigits (whole ++ fraction)
  let exponent ← match exponent with
    | [] => some 0
    | _ :: cs => exponentOf cs
  if digits.isEmpty then none
  else some (scaled negative digits (exponent - fraction.length))

/-- The grammar of decimal texts, in lower case and without underscores. -/
def decimalNumeral (cs : List Char) : Option Dec :=
  let (negative, cs) := match cs with
    | '-' :: cs => (true, cs)
    | '+' :: cs => (false, cs)
    | cs => (false, cs)
  match cs with
  | 'n' :: 'a' :: 'n' :: payload => (plainDigits payload).map fun _ => .nan
  | 's' :: 'n' :: 'a' :: 'n' :: payload => (plainDigits payload).map fun _ => .snan
  | cs =>
    if cs = "inf".toList ∨ cs = "infinity".toList then some (.infinity negative)
    else finiteNumeral negative cs

/-- `Decimal(text)`. -/
def parseDecimal (s : String) : Except PyError Dec :=
  match decimalNumeral (((strip s.toList).filter (· ≠ '_')).map lowerChar) with
  | some d => .ok d
  | none => .error (.other "InvalidOperation")

/-- `Decimal(j)`. A list is read as sign, digits and exponent. -/
def Json.toDecimal : Json → Except PyError Dec
  | bool b => .ok (.finite (if b then 1 else 0))
  | int n => .ok (.finite n)
  | float v _ => .ok v
  | str s => parseDecimal s
  | arr [int sign, arr ds, exponent] =>
    match ds.mapM digit, exponent with
    | some ds, int e =>
      if sign = 0 ∨ sign = 1 then .ok (scaled (sign = 1) ds e) else .error (.other "ValueError")
    | some _, str "F" => .ok (.infinity (sign = 1))
    | some _, str "n" => .ok .nan
    | some _, str "N" => .ok .snan
    | _, _ => .error (.other "ValueError")
  | arr _ => .error (.other "ValueError")
  | null => .error (.other "TypeError")
  | obj _ => .error (.other "TypeError")
where
  digit : Json → Option Nat
    | int n => if 0 ≤ n ∧ n ≤ 9 then some n.toNat else none
    | _ => none

end AgentTrading.Kis
