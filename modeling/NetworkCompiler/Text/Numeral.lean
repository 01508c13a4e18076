import NetworkCompiler.Text.Split

/-!
# Whole numbers in texts

`natural?` reads decimal digits, `unsigned?` also accepts a plus sign in front and `signed?` a
plus or a minus sign; leading zeros count for nothing. `fits64` tells the numbers that 64 bits hold
with their sign.
-/

namespace NetworkCompiler.Text

namespace Chars

/-- The value of a decimal digit. -/
def digit? (c : Char) : Option Nat :=
  if '0' ≤ c && c ≤ '9' then some (c.toNat - 48) else none

/-- The number whose digits follow those of `n`. -/
def naturalFrom? (n : Nat) : List Char → Option Nat
  | [] => some n
  | c :: cs => (digit? c).bind fun d => naturalFrom? (n * 10 + d) cs

/-- The number of one or more digits. -/
def natural? : List Char → Option Nat
  | [] => none
  | c :: cs => naturalFrom? 0 (c :: cs)

/-- A number with an optional plus sign. -/
def unsigned? : List Char → Option Nat
  | '+' :: cs => natural? cs
  | cs => natural? cs

/-- A number with an optional sign. -/
def signed? : List Char → Option Int
  | '+' :: cs => (natural? cs).map Int.ofNat
  | '-' :: cs => (natural? cs).map fun n => -(n : Int)
  | cs => (natural? cs).map Int.ofNat

end Chars

/-- A number with an optional plus sign, at most `max`. -/
def unsigned? (max : Nat) (s : String) : Option Nat :=
  (Chars.unsigned? s.toList).filter (· ≤ max)

/-- Whether 64 bits hold a number with its sign. -/
def fits64 (n : Int) : Bool :=
  -0x8000000000000000 ≤ n && n ≤ 0x7fffffffffffffff

/-- A number with an optional sign that fits 64 bits. -/
def signed64? (s : String) : Option Int :=
  (Chars.signed? s.toList).filter fits64

/-- The small letters for the capital letters of ASCII. -/
def lowercase (s : String) : String :=
  String.ofList (s.toList.map Char.toLower)

end NetworkCompiler.Text
