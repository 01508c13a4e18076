import NetworkCompiler.Digest.Checksums
import NetworkCompiler.Text.Split

/-!
# Ethernet addresses

A `Mac` is six octets, written as pairs of small hexadecimal digits with colons between them.
Reading also accepts hyphens, capital digits and blanks around the whole. `derived` makes up a
stable address for a label under a given three-octet beginning.
-/

namespace NetworkCompiler

/-- An Ethernet address. -/
structure Mac where
  o1 : UInt8
  o2 : UInt8
  o3 : UInt8
  o4 : UInt8
  o5 : UInt8
  o6 : UInt8
  deriving DecidableEq, Repr

/-- The three octets with which generated addresses begin. -/
structure MacVendor where
  o1 : UInt8
  o2 : UInt8
  o3 : UInt8
  deriving DecidableEq, Repr

namespace Mac

/-- The octets, first to last. -/
def octets (m : Mac) : List UInt8 :=
  [m.o1, m.o2, m.o3, m.o4, m.o5, m.o6]

/-- The written form. -/
def text (m : Mac) : String :=
  Text.joinWith ":" (m.octets.map fun o => Digest.hex [o])

instance : ToString Mac := ⟨text⟩

/-- The value of a hexadecimal digit of either case. -/
def hexDigit? (c : Char) : Option UInt8 :=
  let n := c.toNat
  if '0' ≤ c && c ≤ '9' then some (UInt8.ofNat (n - 48))
  else if 'a' ≤ c && c ≤ 'f' then some (UInt8.ofNat (n - 87))
  else if 'A' ≤ c && c ≤ 'F' then some (UInt8.ofNat (n - 55))
  else none

/-- The octet of exactly two hexadecimal digits. -/
def octet? : List Char → Option UInt8
  | [a, b] => do
    let a ← hexDigit? a
    let b ← hexDigit? b
    pure (a * 16 + b)
  | _ => none

/-- A hyphen separates octets as a colon does. -/
def unifySeparator (c : Char) : Char :=
  if c = '-' then ':' else c

/-- Reads an address. -/
def ofText? (s : String) : Option Mac :=
  match Text.Chars.splitAt ':' ((Text.Chars.trim s.toList).map unifySeparator) with
  | [a, b, c, d, e, f] => do
    let a ← octet? a
    let b ← octet? b
    let c ← octet? c
    let d ← octet? d
    let e ← octet? e
    let f ← octet? f
    pure ⟨a, b, c, d, e, f⟩
  | _ => none

/-- The four octets of a number, least significant first. -/
def leastFirst (n : Nat) : List UInt8 :=
  [UInt8.ofNat n, UInt8.ofNat (n / 0x100), UInt8.ofNat (n / 0x10000), UInt8.ofNat (n / 0x1000000)]

/-- The candidate number `attempt` for a label: the vendor's octets, then the first three octets
of a hash of the label and the number. -/
def derivedBy (hash : List UInt8 → List UInt8) (vendor : MacVendor) (label : String)
    (attempt : Nat) : Mac :=
  let tail := hash (label.toUTF8.toList ++ leastFirst attempt)
  ⟨vendor.o1, vendor.o2, vendor.o3, tail.getD 0 0, tail.getD 1 0, tail.getD 2 0⟩

/-- The candidate number `attempt` for a label, by SHA-256. -/
def derived (vendor : MacVendor) (label : String) (attempt : Nat) : Mac :=
  derivedBy Digest.sha256 vendor label attempt

end Mac

namespace MacVendor

/-- Reads three octets with colons between them. -/
def ofText? (s : String) : Option MacVendor :=
  match Text.Chars.splitAt ':' (Text.Chars.trim s.toList) with
  | [a, b, c] => do
    let a ← Mac.octet? a
    let b ← Mac.octet? b
    let c ← Mac.octet? c
    pure ⟨a, b, c⟩
  | _ => none

end MacVendor

end NetworkCompiler
