import Mathlib.Data.List.Range
import NetworkCompiler.Proofs.Ipv4.Addresses
import NetworkCompiler.Proofs.Ipv4.Blocks

/-!
# Blocks on machine words

An address is a word of 32 bits (`Address.word`), and what a block says about addresses can be
computed on words : with the mask of its length (`maskWord`), with shifts, and with an addition that
stops at the last word (`succSaturating`). These give the block's own answers, and none of their
sums wraps around (`Block.isComputedOnWords`).

`blocks_are_intervals` is what the rest of the addressing stands on. A block is all addresses from
its network address to its broadcast address, two blocks share an address only if one of them lies
in the other, the next block begins right behind, and the hosts behind an address are counted up one
by one.
-/

namespace NetworkCompiler.Ipv4

/-! ## Words -/

theorem Address.value_injective : Function.Injective Address.value := fun a b h => by
  obtain ⟨v, hv⟩ := a
  obtain ⟨w, hw⟩ := b
  cases h
  rfl

/-- An address as a word. -/
def Address.word (a : Address) : UInt32 :=
  UInt32.ofNat a.value

@[simp] theorem Address.toNat_word (a : Address) : a.word.toNat = a.value := by
  rw [word, UInt32.toNat_ofNat', Nat.mod_eq_of_lt a.value_lt]

/-- The mask of a prefix length. A word cannot be shifted by all of its bits, so the empty prefix
has a case of its own. -/
def maskWord (length : Nat) : UInt32 :=
  if length = 0 then 0 else 0xffffffff <<< UInt32.ofNat (32 - length)

/-- The word behind a word ; the last word stays. -/
def succSaturating (w : UInt32) : UInt32 :=
  if w = 0xffffffff then w else w + 1

theorem toNat_succ_of_lt {w stop : UInt32} (h : w < stop) : (w + 1).toNat = w.toNat + 1 := by
  have hstop := stop.toNat_lt
  rw [UInt32.lt_iff_toNat_lt] at h
  rw [UInt32.toNat_add, UInt32.toNat_one]
  omega

/-- The words from `first` on that are below `stop`, one after the other. -/
def wordsBelow (first stop : UInt32) : List UInt32 :=
  if first < stop then first :: wordsBelow (first + 1) stop else []
termination_by stop.toNat - first.toNat
decreasing_by
  next h =>
    rw [toNat_succ_of_lt h]
    rw [UInt32.lt_iff_toNat_lt] at h
    omega

/-- No step from word to word wraps around. -/
theorem map_toNat_wordsBelow (first stop : UInt32) :
    (wordsBelow first stop).map UInt32.toNat =
      List.range' first.toNat (stop.toNat - first.toNat) := by
  fun_induction wordsBelow first stop with
  | case1 first h ih =>
    rw [List.map_cons, ih, toNat_succ_of_lt h]
    rw [UInt32.lt_iff_toNat_lt] at h
    obtain ⟨n, hn⟩ : ∃ n, stop.toNat - first.toNat = n + 1 :=
      ⟨stop.toNat - first.toNat - 1, by omega⟩
    rw [hn, List.range'_succ, show stop.toNat - (first.toNat + 1) = n by omega]
  | case2 first h =>
    rw [UInt32.lt_iff_toNat_lt] at h
    rw [show stop.toNat - first.toNat = 0 by omega]
    rfl

theorem toNat_succSaturating (w : UInt32) :
    (succSaturating w).toNat = min (w.toNat + 1) 0xffffffff := by
  have hw := w.toNat_lt
  have hlast : (0xffffffff : UInt32).toNat = 0xffffffff := rfl
  unfold succSaturating
  split
  · next h => rw [h, hlast]
              rfl
  · next h =>
    have hne : w.toNat ≠ 0xffffffff := fun heq => h (UInt32.toNat_inj.mp (heq.trans hlast.symm))
    rw [UInt32.toNat_add, UInt32.toNat_one]
    omega

/-! ## Masks -/

namespace Block

theorem value_maskOf (length : Nat) : (maskOf length).value = 0x100000000 - blockSize length := by
  have hvalue : (maskOf length).value = 0xffffffff <<< (32 - length) % 0x100000000 := rfl
  have hsize : blockSize length = 2 ^ (32 - length) := rfl
  have hpos := blockSize_pos length
  have hle := blockSize_le length
  rw [hvalue, Nat.shiftLeft_eq, ← hsize]
  omega

/-- Moving 32 ones up in a word leaves the mask of a block. -/
theorem word_netmask (b : Block) : b.netmask.word = maskWord b.length := by
  have hlength := b.length_le
  rw [netmask, ← UInt32.toNat_inj, Address.toNat_word, maskWord]
  split
  · next hzero =>
    rw [hzero]
    rfl
  · have hshift : (UInt32.ofNat (32 - b.length)).toNat % 32 = 32 - b.length := by
      rw [UInt32.toNat_ofNat']
      omega
    rw [UInt32.toNat_shiftLeft, hshift]
    rfl

theorem toNat_maskWord (b : Block) : (maskWord b.length).toNat = 0x100000000 - b.size := by
  rw [← word_netmask, Address.toNat_word]
  exact value_maskOf b.length

/-- The bits behind the prefix, all of them ones. -/
theorem toNat_not_maskWord (b : Block) : (~~~ maskWord b.length).toNat = b.size - 1 := by
  have hpos := b.size_pos
  have hle : b.size ≤ 0x100000000 := blockSize_le b.length
  rw [UInt32.toNat_not, toNat_maskWord, UInt32.size]
  omega

/-- An address lies in a block if clearing the bits behind the prefix leaves the network. -/
theorem contains_iff_mask {b : Block} {a : Address} :
    b.contains a = true ↔ a.word &&& maskWord b.length = b.network.word := by
  have hcleared := network_ofAddress a b.length_le
  have hvalue : (ofAddress a b.length b.length_le).network.value = a.value / b.size * b.size := rfl
  have hnetwork : b.network.value / b.size * b.size = b.network.value :=
    Nat.div_mul_cancel b.aligned
  rw [← UInt32.toNat_inj, UInt32.toNat_and, ← word_netmask, Address.toNat_word, Address.toNat_word,
    Address.toNat_word, netmask, ← hcleared, hvalue, contains, decide_eq_true_eq]
  conv_rhs => rw [← hnetwork]
  exact (Nat.mul_left_inj b.size_pos.ne').symm

/-- The last address of a block has ones behind the prefix. -/
theorem word_broadcast (b : Block) :
    b.broadcast.word = b.network.word ||| ~~~ maskWord b.length := by
  obtain ⟨k, hk⟩ := b.aligned
  have hsize : b.size = 2 ^ (32 - b.length) := rfl
  have hpos := b.size_pos
  have hbits : b.network.value = 2 ^ (32 - b.length) * k := hk
  rw [← UInt32.toNat_inj, UInt32.toNat_or, toNat_not_maskWord, Address.toNat_word,
    Address.toNat_word, broadcast_value, hbits, ← Nat.two_pow_add_eq_or_of_lt (by omega)]
  omega

/-- In 64 bits there is room for the number behind the last address of any block. -/
theorem toNat_behind (b : Block) :
    (b.network.word.toUInt64 + 1 <<< UInt64.ofNat (32 - b.length)).toNat =
      b.broadcast.value + 1 := by
  have hend := b.network_add_size_le
  have hpos := b.size_pos
  have hshift : (UInt64.ofNat (32 - b.length)).toNat % 64 = 32 - b.length := by
    rw [UInt64.toNat_ofNat']
    omega
  have hsize : (1 <<< UInt64.ofNat (32 - b.length) : UInt64).toNat = b.size := by
    have hone : 1 <<< (32 - b.length) = b.size := Nat.one_shiftLeft _
    have hle : b.size ≤ 0x100000000 := blockSize_le b.length
    rw [UInt64.toNat_shiftLeft, hshift, UInt64.toNat_one, hone]
    omega
  rw [UInt64.toNat_add, hsize, UInt32.toNat_toUInt64, Address.toNat_word, broadcast_value]
  omega

/-! ## The next block -/

theorem next?_eq_some_iff {b n : Block} :
    b.next? = some n ↔ n.length = b.length ∧ n.network.value = b.broadcast.value + 1 := by
  have hpos := b.size_pos
  have hbehind : b.broadcast.value + 1 = b.network.value + b.size := by
    rw [broadcast_value]
    omega
  rw [hbehind]
  refine ⟨fun h => (next?_eq_some h).symm, fun ⟨hlength, hnetwork⟩ => ?_⟩
  cases hnext : b.next? with
  | some m =>
    obtain ⟨hnetwork', hlength'⟩ := next?_eq_some hnext
    rw [ext_of_network (hlength'.trans hlength.symm) (hnetwork'.trans hnetwork.symm)]
  | none =>
    have hend := next?_eq_none hnext
    have hlt := n.network.value_lt
    omega

theorem next?_eq_none_iff {b : Block} : b.next? = none ↔ b.broadcast = Address.last := by
  have hlast : Address.last.value = 0xffffffff := rfl
  have hpos := b.size_pos
  have hend := b.network_add_size_le
  constructor
  · intro h
    have hnone := next?_eq_none h
    apply Address.value_injective
    rw [broadcast_value, hlast]
    omega
  · intro h
    by_contra hsome
    obtain ⟨n, hn⟩ := Option.ne_none_iff_exists'.mp hsome
    have hnetwork := (next?_eq_some_iff.mp hn).2
    have hlt := n.network.value_lt
    rw [h, hlast] at hnetwork
    omega

/-! ## Hosts -/

/-- The hosts behind an address are the numbers from the one behind it up to the broadcast
address, one by one. -/
theorem map_value_hostsAfter (b : Block) (start : Address) :
    (b.hostsAfter start).map Address.value =
      List.range' (start.value + 1) (b.broadcast.value - (start.value + 1)) := by
  have hbroadcast := b.broadcast.value_lt
  rw [hostsAfter, firstHostsAfter, Nat.min_self, hostCountAfter, List.map_map]
  refine (List.map_congr_left fun n hn => ?_).trans (List.map_id _)
  rw [List.mem_range'_1] at hn
  exact Nat.mod_eq_of_lt (by omega)

theorem pairwise_hostsAfter (b : Block) (start : Address) :
    (b.hostsAfter start).Pairwise (· < ·) := by
  have hsorted : (List.range' (start.value + 1) (b.broadcast.value - (start.value + 1))).Pairwise
      (· < ·) := List.pairwise_lt_range'
  rw [← map_value_hostsAfter, List.pairwise_map] at hsorted
  exact hsorted

theorem mem_hostsAfter {b : Block} {start a : Address} :
    a ∈ b.hostsAfter start ↔ start < a ∧ a < b.broadcast := by
  rw [← List.mem_map_of_injective Address.value_injective, map_value_hostsAfter, List.mem_range'_1]
  change _ ↔ start.value < a.value ∧ a.value < b.broadcast.value
  omega

/-- Counting words up from the one behind an address finds its hosts. -/
theorem map_word_hostsAfter (b : Block) (start : Address) :
    (b.hostsAfter start).map Address.word =
      wordsBelow (succSaturating start.word) b.broadcast.word := by
  have hstart := start.value_lt
  have hbroadcast := b.broadcast.value_lt
  have hvalue : UInt32.toNat ∘ Address.word = Address.value := funext Address.toNat_word
  apply List.map_injective_iff.mpr fun v w => UInt32.toNat_inj.mp
  rw [List.map_map, hvalue, map_value_hostsAfter, map_toNat_wordsBelow, toNat_succSaturating,
    Address.toNat_word, Address.toNat_word]
  by_cases hlast : start.value = 0xffffffff
  · rw [show b.broadcast.value - (start.value + 1) = 0 by omega,
      show b.broadcast.value - min (start.value + 1) 0xffffffff = 0 by omega]
    rfl
  · rw [Nat.min_eq_left (by omega)]

/-! ## Intervals -/

/-- What a block says about addresses is what masks, shifts and sums of words make of it. The sum
of 64 bits is as large as it should be, so the next block is missed only if it does not exist. -/
structure IsComputedOnWords (b : Block) : Prop where
  netmask : b.netmask.word = maskWord b.length
  contains : ∀ a, b.contains a = true ↔ a.word &&& maskWord b.length = b.network.word
  broadcast : b.broadcast.word = b.network.word ||| ~~~ maskWord b.length
  next : (b.network.word.toUInt64 + 1 <<< UInt64.ofNat (32 - b.length)).toNat =
    b.broadcast.value + 1
  hosts : ∀ start, (b.hostsAfter start).map Address.word =
    wordsBelow (succSaturating start.word) b.broadcast.word

theorem isComputedOnWords (b : Block) : b.IsComputedOnWords where
  netmask := word_netmask b
  contains _ := contains_iff_mask
  broadcast := word_broadcast b
  next := toNat_behind b
  hosts := map_word_hostsAfter b

/-- All addresses of a block lie in another. -/
def IsWithin (b c : Block) : Prop :=
  ∀ a, b.contains a = true → c.contains a = true

theorem contains_iff_between {b : Block} {a : Address} :
    b.contains a = true ↔ b.network.value ≤ a.value ∧ a.value ≤ b.broadcast.value := by
  have hpos := b.size_pos
  rw [contains_iff, broadcast_value]
  omega

/-- Of two blocks that share an address, the one with the longer prefix lies in the other : an
address has its quotient by the larger size from its quotient by the smaller one. -/
theorem isWithin_of_length_le {b c : Block} (hlength : c.length ≤ b.length) {a : Address}
    (hb : b.contains a = true) (hc : c.contains a = true) : b.IsWithin c := by
  obtain ⟨k, hk⟩ : b.size ∣ c.size := blockSize_dvd_blockSize hlength
  intro x hx
  rw [contains, decide_eq_true_eq] at hb hc hx ⊢
  calc x.value / c.size = x.value / b.size / k := by rw [hk, Nat.div_div_eq_div_mul]
    _ = a.value / b.size / k := by rw [hx, hb]
    _ = a.value / c.size := by rw [hk, Nat.div_div_eq_div_mul]
    _ = c.network.value / c.size := hc

/-- Two blocks overlap if and only if one of them lies in the other. -/
theorem overlaps_iff_isWithin {b c : Block} :
    b.overlaps c = true ↔ b.IsWithin c ∨ c.IsWithin b := by
  rw [overlaps_iff]
  constructor
  · rintro ⟨a, hb, hc⟩
    rcases Nat.le_total c.length b.length with hlength | hlength
    · exact .inl (isWithin_of_length_le hlength hb hc)
    · exact .inr (isWithin_of_length_le hlength hc hb)
  · rintro (h | h)
    · exact ⟨b.network, contains_network b, h _ (contains_network b)⟩
    · exact ⟨c.network, h _ (contains_network c), contains_network c⟩

/-- A block is the addresses from its network address to its broadcast address. Two blocks overlap
if and only if they share an address, which is if and only if one lies in the other. The next block
has the same length and begins right behind, and there is none exactly behind the last address. The
hosts behind an address are those below the broadcast address, in ascending order and each number
one more than the number before it. All of this is what words of 32 bits compute. -/
theorem blocks_are_intervals (b c : Block) (start : Address) :
    (∀ a, b.contains a = true ↔ b.network.value ≤ a.value ∧ a.value ≤ b.broadcast.value) ∧
    (b.overlaps c = true ↔ ∃ a, b.contains a = true ∧ c.contains a = true) ∧
    (b.overlaps c = true ↔ b.IsWithin c ∨ c.IsWithin b) ∧
    (∀ n, b.next? = some n ↔ n.length = b.length ∧ n.network.value = b.broadcast.value + 1) ∧
    (b.next? = none ↔ b.broadcast = Address.last) ∧
    (b.hostsAfter start).Pairwise (· < ·) ∧
    (∀ a, a ∈ b.hostsAfter start ↔ start < a ∧ a < b.broadcast) ∧
    (b.hostsAfter start).map Address.value =
      List.range' (start.value + 1) (b.broadcast.value - (start.value + 1)) ∧
    b.IsComputedOnWords :=
  ⟨fun _ => contains_iff_between, overlaps_iff, overlaps_iff_isWithin, fun _ => next?_eq_some_iff,
    next?_eq_none_iff, pairwise_hostsAfter b start, fun _ => mem_hostsAfter,
    map_value_hostsAfter b start, isComputedOnWords b⟩

end Block

end NetworkCompiler.Ipv4
