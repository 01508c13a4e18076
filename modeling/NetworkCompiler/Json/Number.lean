import NetworkCompiler.Json.Value

/-!
# Reading JSON numbers

A number without fraction and exponent is exact while it fits 64 bits; minus zero and everything
else is a double. The double of a decimal is computed from as many of its digits as fit an
unsigned 64-bit number: they are rounded to a double, which is then multiplied or divided by a
power of ten. A number whose double would be infinite is refused.
-/

namespace NetworkCompiler.Json

/-- The greatest unsigned 64-bit number. -/
def maxWord : Nat := 0xffffffffffffffff

/-- The value of a decimal digit. -/
def digit? (c : Char) : Option Nat :=
  if '0' ≤ c && c ≤ '9' then some (c.toNat - 48) else none

/-- The run of digits in front of a text, and the rest. -/
def digitRun : List Char → List Nat × List Char
  | [] => ([], [])
  | c :: cs =>
    match digit? c with
    | some d => let (ds, rest) := digitRun cs; (d :: ds, rest)
    | none => ([], c :: cs)

/-- Appends digits to `n` while the result fits a word; the digits that do not fit remain. -/
def takeDigits (n : Nat) : List Nat → Nat × List Nat
  | [] => (n, [])
  | d :: ds => if n * 10 + d ≤ maxWord then takeDigits (n * 10 + d) ds else (n, d :: ds)

/-- The power `10 ^ n` as a double. -/
def powerOfTen (n : Nat) : Float :=
  Float.ofScientific 1 false n

/-- Divides by `10 ^ 308` until the exponent is within the range of powers of ten. -/
def scaleFloat (fuel : Nat) (f : Float) (exponent : Int) : Option Float :=
  match fuel with
  | 0 => some f
  | fuel + 1 =>
    if exponent.natAbs ≤ 308 then
      if 0 ≤ exponent then
        let g := f * powerOfTen exponent.natAbs
        if g.isInf then none else some g
      else some (f / powerOfTen exponent.natAbs)
    else if f == 0.0 then some f
    else if 0 ≤ exponent then none
    else scaleFloat fuel (f / powerOfTen 308) (exponent + 308)

/-- The double `± significand * 10 ^ exponent`. -/
def realOf? (positive : Bool) (significand : Nat) (exponent : Int) : Option Value :=
  (scaleFloat 10 significand.toUInt64.toFloat exponent).map fun f =>
    .real (if positive then f else -f).toBits

/-- The greatest exponent that is read digit by digit. -/
def maxExponent : Nat := 0x7fffffff

/-- Keeps an exponent within 32 bits. -/
def clampExponent (e : Int) : Int :=
  if e < -0x80000000 then -0x80000000 else if maxExponent < e then maxExponent else e

/-- Reads what follows the exponent mark. -/
def exponentPart (positive : Bool) (significand : Nat) (start : Int) (cs : List Char) :
    Option (Value × List Char) :=
  let (upward, cs) := match cs with
    | '+' :: cs => (true, cs)
    | '-' :: cs => (false, cs)
    | cs => (true, cs)
  let (ds, rest) := digitRun cs
  if ds.isEmpty then none
  else
    let e := ds.foldl (fun n d => n * 10 + d) 0
    if maxExponent < e then
      if significand ≠ 0 && upward then none
      else some (.real (if positive then (0.0 : Float) else -0.0).toBits, rest)
    else
      let exponent := clampExponent (if upward then start + e else start - e)
      (realOf? positive significand exponent).map (·, rest)

/-- Reads an exponent if one follows. -/
def exponentIfAny (positive : Bool) (significand : Nat) (start : Int) :
    List Char → Option (Value × List Char)
  | 'e' :: cs => exponentPart positive significand start cs
  | 'E' :: cs => exponentPart positive significand start cs
  | cs => (realOf? positive significand start).map (·, cs)

/-- Reads what follows the decimal point. -/
def fractionPart (positive : Bool) (significand : Nat) (start : Int) (cs : List Char) :
    Option (Value × List Char) :=
  let (ds, rest) := digitRun cs
  if ds.isEmpty then none
  else
    let (n, left) := takeDigits significand ds
    exponentIfAny positive n (start - ((ds.length - left.length : Nat) : Int)) rest

/-- Reads a number behind its sign. -/
def numberAfterSign (positive : Bool) (cs : List Char) : Option (Value × List Char) :=
  let (ds, rest) := digitRun cs
  match ds with
  | [] => none
  | 0 :: _ :: _ => none
  | ds =>
    let (n, left) := takeDigits 0 ds
    let start : Int := left.length
    match rest with
    | '.' :: cs => fractionPart positive n start cs
    | 'e' :: cs => exponentPart positive n start cs
    | 'E' :: cs => exponentPart positive n start cs
    | rest =>
      if left.isEmpty then
        if positive then some (.int n, rest)
        else if n = 0 || 0x8000000000000000 < n then
          some (.real (-(n.toUInt64.toFloat)).toBits, rest)
        else some (.int (-(n : Int)), rest)
      else (realOf? positive n start).map (·, rest)

end NetworkCompiler.Json
