/-!
# Shortest decimals

The shortest decimal that reads back as a given binary floating-point number. A finite double is
an exact `m * 2 ^ q` (`Binary`); the reals that round to it form an interval, closed when `m` is
even. `shortest` tries one digit, then two, and so on: the first decimal grid with a point in
the interval wins, and of two points the nearer. All arithmetic is on natural numbers.
-/

namespace NetworkCompiler.Decimal

/-- A positive number `m * 2 ^ q`, and whether the number below it lies half as far away as the
number above it. -/
structure Binary where
  m : Nat
  q : Int
  narrowBelow : Bool
  deriving DecidableEq, Repr

/-- A decimal `digits * 10 ^ exponent`. -/
structure Digits where
  digits : Nat
  exponent : Int
  deriving DecidableEq, Repr, Inhabited

/-- The magnitude of a finite double, nothing for zero. -/
def Binary.ofBits? (bits : UInt64) : Option Binary :=
  let fraction : Nat := bits.toNat % 0x10000000000000
  let exponent : Nat := bits.toNat / 0x10000000000000 % 0x800
  if exponent = 0 then
    if fraction = 0 then none else some ⟨fraction, -1074, false⟩
  else some ⟨0x10000000000000 + fraction, (exponent : Int) - 1075, fraction = 0 && exponent != 1⟩

/-- A ratio of natural numbers. -/
structure Ratio where
  num : Nat
  den : Nat

/-- `n * 2 ^ q` as a ratio. -/
def Ratio.scale2 (n : Nat) (q : Int) : Ratio :=
  if 0 ≤ q then ⟨n * Nat.pow 2 q.toNat, 1⟩ else ⟨n, Nat.pow 2 (-q).toNat⟩

/-- `n * 10 ^ e` as a ratio. -/
def Ratio.scale10 (n : Nat) (e : Int) : Ratio :=
  if 0 ≤ e then ⟨n * Nat.pow 10 e.toNat, 1⟩ else ⟨n, Nat.pow 10 (-e).toNat⟩

/-- Whether one ratio is below another. -/
def Ratio.lt (a b : Ratio) : Bool :=
  a.num * b.den < b.num * a.den

/-- Whether one ratio is at most another. -/
def Ratio.le (a b : Ratio) : Bool :=
  a.num * b.den ≤ b.num * a.den

/-- The distance of two ratios. -/
def Ratio.dist (a b : Ratio) : Ratio :=
  let x := a.num * b.den
  let y := b.num * a.den
  ⟨(x - y) + (y - x), a.den * b.den⟩

/-- The value of a binary number. -/
def Binary.value (b : Binary) : Ratio :=
  Ratio.scale2 (4 * b.m) (b.q - 2)

/-- Whether a decimal rounds to the binary number. -/
def Binary.admits (b : Binary) (d : Digits) : Bool :=
  let x := Ratio.scale10 d.digits d.exponent
  let low := Ratio.scale2 (4 * b.m - if b.narrowBelow then 1 else 2) (b.q - 2)
  let high := Ratio.scale2 (4 * b.m + 2) (b.q - 2)
  if b.m % 2 = 0 then low.le x && x.le high else low.lt x && x.lt high

/-- The least power of ten above a binary number, as an exponent. -/
def Binary.magnitude (b : Binary) : Int :=
  let exponents := (List.range 640).map fun (i : Nat) => (i : Int) - 325
  (exponents.find? fun e => b.value.lt (Ratio.scale10 1 e)).getD 310

/-- The two neighbours of a binary number on the grid of `n` digits, nearer first. -/
def Binary.neighbours (b : Binary) (n : Nat) : List Digits :=
  let e := b.magnitude - n
  let v := b.value
  let below :=
    if 0 ≤ e then v.num / (v.den * Nat.pow 10 e.toNat)
    else v.num * Nat.pow 10 (-e).toNat / v.den
  let lower : Digits := ⟨below, e⟩
  let upper : Digits := ⟨below + 1, e⟩
  let toLower := (Ratio.scale10 below e).dist v
  let toUpper := (Ratio.scale10 (below + 1) e).dist v
  if toLower.lt toUpper || (toLower.le toUpper && below % 2 = 0) then [lower, upper]
  else [upper, lower]

/-- Drops the zeros at the end of the digits. -/
def Digits.normalize (fuel : Nat) (d : Digits) : Digits :=
  match fuel with
  | 0 => d
  | fuel + 1 =>
    if d.digits ≠ 0 && d.digits % 10 = 0 then
      Digits.normalize fuel ⟨d.digits / 10, d.exponent + 1⟩
    else d

/-- The shortest decimal that rounds to a binary number, without zeros at its end. -/
def Binary.shortest (b : Binary) : Digits :=
  let grids := (List.range 17).flatMap fun i => b.neighbours (i + 1)
  let found := (grids.find? b.admits).getD ⟨b.m, 0⟩
  found.normalize 20

end NetworkCompiler.Decimal
