import NetworkCompiler.Text.Numeral
import NetworkCompiler.Text.Split

/-!
# IPv4 addresses and blocks

An `Address` is a number below `2 ^ 32`. It is written as its four octets with dots between them;
`ofText?` reads exactly that form, without leading zeros.

A `Block` is a network in the notation `address/length`: the addresses that share the first
`length` bits of its `network` address. The network address is always a multiple of the block's
size, so membership is equality of quotients. `next?` is the block of the same size right behind,
`hostsAfter` the addresses between a given one and the broadcast address.
-/

namespace NetworkCompiler.Ipv4

/-! ## Addresses -/

/-- An IPv4 address. -/
structure Address where
  value : Nat
  value_lt : value < 0x100000000
  deriving DecidableEq

namespace Address

instance : LT Address := ⟨fun a b => a.value < b.value⟩

instance : DecidableLT Address := fun a b => inferInstanceAs (Decidable (a.value < b.value))

instance : Inhabited Address := ⟨⟨0, by decide⟩⟩

/-- The address of a number; numbers that do not fit wrap around. -/
def ofNat (n : Nat) : Address :=
  ⟨n % 0x100000000, Nat.mod_lt _ (by decide)⟩

/-- The last address. -/
def last : Address := ⟨0xffffffff, by decide⟩

/-- The address `n` places further, if there is one. -/
def add? (a : Address) (n : Nat) : Option Address :=
  if h : a.value + n < 0x100000000 then some ⟨a.value + n, h⟩ else none

/-- The address of four octets. -/
def ofOctets (a b c d : UInt8) : Address :=
  ⟨((a.toNat * 256 + b.toNat) * 256 + c.toNat) * 256 + d.toNat, by
    have := a.toNat_lt; have := b.toNat_lt; have := c.toNat_lt; have := d.toNat_lt
    omega⟩

/-- The octets of an address, most significant first. -/
def octets (a : Address) : List Nat :=
  [a.value / 0x1000000, a.value / 0x10000 % 256, a.value / 0x100 % 256, a.value % 256]

/-- The bits of an address, most significant first. -/
def bits (a : Address) : List Bool :=
  (List.range 32).map fun i => a.value.testBit (31 - i)

/-- The dotted form. -/
def text (a : Address) : String :=
  Text.joinWith "." (a.octets.map toString)

instance : ToString Address := ⟨text⟩

/-- The octet of one to three digits without leading zeros. -/
def octet? (cs : List Char) : Option UInt8 :=
  match cs with
  | '0' :: _ :: _ => none
  | _ =>
    match Text.Chars.natural? cs with
    | some n => if n < 256 then some (UInt8.ofNat n) else none
    | none => none

/-- Reads the dotted form. -/
def ofText? (s : String) : Option Address :=
  match Text.Chars.splitAt '.' s.toList with
  | [a, b, c, d] => do
    let a ← octet? a
    let b ← octet? b
    let c ← octet? c
    let d ← octet? d
    pure (ofOctets a b c d)
  | _ => none

end Address

/-! ## Blocks -/

/-- How many addresses share their first `length` bits. -/
def blockSize (length : Nat) : Nat :=
  Nat.pow 2 (32 - length)

theorem blockSize_pos (length : Nat) : 0 < blockSize length :=
  Nat.two_pow_pos _

theorem blockSize_le (length : Nat) : blockSize length ≤ 0x100000000 :=
  show Nat.pow 2 (32 - length) ≤ Nat.pow 2 32 from
    Nat.pow_le_pow_right (by decide) (Nat.sub_le _ _)

theorem blockSize_dvd (length : Nat) : blockSize length ∣ 0x100000000 :=
  show Nat.pow 2 (32 - length) ∣ Nat.pow 2 32 from
    Nat.pow_dvd_pow 2 (Nat.sub_le _ _)

/-- An IPv4 network. -/
structure Block where
  network : Address
  length : Nat
  length_le : length ≤ 32
  aligned : blockSize length ∣ network.value
  deriving DecidableEq

namespace Block

/-- The block of a length in which an address lies. -/
def ofAddress (a : Address) (length : Nat) (h : length ≤ 32) : Block where
  network := ⟨a.value / blockSize length * blockSize length,
    Nat.lt_of_le_of_lt (Nat.div_mul_le_self _ _) a.value_lt⟩
  length := length
  length_le := h
  aligned := Nat.dvd_mul_left _ _

/-- The block of a length in which an address lies, if the length is one. -/
def ofAddress? (a : Address) (length : Nat) : Option Block :=
  if h : length ≤ 32 then some (ofAddress a length h) else none

/-- The block of a single address. -/
def single (a : Address) : Block :=
  ofAddress a 32 (Nat.le_refl _)

/-- How many addresses a block has. -/
def size (b : Block) : Nat :=
  blockSize b.length

theorem size_pos (b : Block) : 0 < b.size :=
  blockSize_pos _

theorem network_add_size_le (b : Block) : b.network.value + b.size ≤ 0x100000000 := by
  obtain ⟨k, hk⟩ := b.aligned
  obtain ⟨m, hm⟩ := blockSize_dvd b.length
  have hlt := b.network.value_lt
  rw [hk, hm] at hlt
  have hkm : k + 1 ≤ m := Nat.lt_of_mul_lt_mul_left hlt
  calc b.network.value + b.size = blockSize b.length * (k + 1) := by
        rw [hk, size, Nat.mul_add, Nat.mul_one]
    _ ≤ blockSize b.length * m := Nat.mul_le_mul_left _ hkm
    _ = 0x100000000 := hm.symm

/-- The mask of a prefix length : 32 ones, moved up by the bits behind the prefix. -/
def maskOf (length : Nat) : Address :=
  .ofNat (0xffffffff <<< (32 - length))

/-- The mask of a block. -/
def netmask (b : Block) : Address :=
  maskOf b.length

/-- The last address of a block. -/
def broadcast (b : Block) : Address :=
  ⟨b.network.value + b.size - 1, by
    have h := b.network_add_size_le
    have := b.size_pos
    omega⟩

/-- The address behind the network address; the very last address has none behind it. -/
def firstHost (b : Block) : Address :=
  (b.network.add? 1).getD Address.last

/-- Whether an address lies in a block. -/
def contains (b : Block) (a : Address) : Bool :=
  a.value / b.size = b.network.value / b.size

/-- Whether two blocks share an address. -/
def overlaps (b c : Block) : Bool :=
  b.contains c.network || c.contains b.network

/-- The block of the same size right behind, if there is one. -/
def next? (b : Block) : Option Block :=
  (b.network.add? b.size).bind fun a => ofAddress? a b.length

/-- How many addresses lie behind `start` and before the broadcast address. -/
def hostCountAfter (b : Block) (start : Address) : Nat :=
  b.broadcast.value - (start.value + 1)

/-- The first `n` addresses behind `start` and before the broadcast address. -/
def firstHostsAfter (b : Block) (start : Address) (n : Nat) : List Address :=
  (List.range' (start.value + 1) (min n (b.hostCountAfter start))).map Address.ofNat

/-- All addresses behind `start` and before the broadcast address, ascending. -/
def hostsAfter (b : Block) (start : Address) : List Address :=
  b.firstHostsAfter start (b.hostCountAfter start)

/-- The notation `address/length`. -/
def text (b : Block) : String :=
  s!"{b.network}/{b.length}"

instance : ToString Block := ⟨text⟩

/-- Reads the notation `address/length`; blanks around it and host bits in it are dropped. -/
def ofText? (s : String) : Option Block := do
  let (address, length) ← Text.cutAt? '/' (Text.trim s)
  let address ← Address.ofText? address
  let length ← Text.unsigned? 255 length
  ofAddress? address length

/-- The prefix length of a mask, none of whose ones stands behind a zero. -/
def lengthOfMask? (mask : Address) : Option Nat :=
  let leadingOnes := (mask.bits.takeWhile id).length
  if mask.bits.count true = leadingOnes then some leadingOnes else none

end Block

end NetworkCompiler.Ipv4
