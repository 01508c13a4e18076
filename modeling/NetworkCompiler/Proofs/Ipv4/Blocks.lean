import Mathlib.Tactic.Common
import NetworkCompiler.Ipv4.FreeBlock

/-!
# Hosts of a block and steps through blocks

A block of at most 30 bits has at least four addresses, so the address behind its network address
is one of its hosts, and another host follows before the broadcast address. The block of a single
address has no other (`contains_single`).

`Block.stepUp b n` is the block `n` steps of `next?` above `b`. The steps visit every block of the
same length from `b` up to the last address (`exists_stepUp_of_le`), so the first free one among
them is the first free block there is. `Block.FirstFree` says this through the addresses alone : a
block is free if it shares none with the taken blocks (`Apart`). `overlaps_iff` brings the test on
two network addresses to shared addresses, and `firstFree?_eq_some_iff` and
`firstFree?_eq_none_iff` say that the search finds the first free block exactly when there is one.
-/

namespace NetworkCompiler.Ipv4.Block

/-! ## Hosts -/

theorem length_of_ofAddress? {a : Address} {n : Nat} {b : Block} (h : ofAddress? a n = some b) :
    b.length = n := by
  unfold ofAddress? at h
  split at h
  · cases h
    rfl
  · cases h

/-- The block of a length in which an address lies holds the address. -/
theorem contains_of_ofAddress? {a : Address} {n : Nat} {b : Block}
    (h : ofAddress? a n = some b) : b.contains a = true := by
  unfold ofAddress? at h
  split at h
  · cases h
    exact contains_iff.mpr ⟨Nat.div_mul_le_self _ _, Nat.lt_div_mul_add (blockSize_pos n)⟩
  · cases h

theorem four_le_size {b : Block} (h : b.length ≤ 30) : 4 ≤ b.size :=
  Nat.le_of_dvd b.size_pos (blockSize_dvd_blockSize (m := b.length) (n := 30) h)

theorem firstHost_value {b : Block} (h : b.length ≤ 30) :
    b.firstHost.value = b.network.value + 1 := by
  have hsize := four_le_size h
  have hle := b.network_add_size_le
  have hlt : b.network.value + 1 < 0x100000000 := by omega
  rw [firstHost, Address.add?, dif_pos hlt, Option.getD_some]

theorem broadcast_value (b : Block) : b.broadcast.value = b.network.value + b.size - 1 :=
  rfl

theorem contains_firstHost {b : Block} (h : b.length ≤ 30) : b.contains b.firstHost = true := by
  have hsize := four_le_size h
  have hvalue := firstHost_value h
  exact contains_iff.mpr ⟨by omega, by omega⟩

theorem contains_single {a b : Address} : (single a).contains b = true ↔ b = a := by
  have hnetwork : (single a).network.value = a.value := by
    simp [single, ofAddress, blockSize]
  have hsize : (single a).size = 1 := rfl
  rw [contains_iff, hnetwork, hsize]
  constructor
  · intro h
    obtain ⟨v, _⟩ := a
    obtain ⟨w, _⟩ := b
    simp only [Address.mk.injEq]
    simp only at h
    omega
  · rintro rfl
    omega

/-! ## Shared addresses -/

/-- No address lies in both blocks. -/
def Apart (b c : Block) : Prop :=
  ∀ a : Address, b.contains a = true → c.contains a = false

theorem Apart.symm {b c : Block} (h : b.Apart c) : c.Apart b := fun a hc => by
  by_contra hb
  rw [h a (by simpa using hb)] at hc
  cases hc

theorem contains_network (b : Block) : b.contains b.network = true :=
  contains_iff.mpr ⟨Nat.le_refl _, by have := b.size_pos; omega⟩

theorem contains_broadcast (b : Block) : b.contains b.broadcast = true :=
  contains_iff.mpr (by have := b.size_pos; have := b.broadcast_value; omega)

/-- A block that shares an address with one that is not longer lies in it as a whole. -/
theorem contains_of_length_le {b c : Block} (hlen : c.length ≤ b.length) {a : Address}
    (hb : b.contains a = true) (hc : c.contains a = true) : c.contains b.network = true := by
  rw [contains_iff] at hb hc ⊢
  have hdvd : b.size ∣ c.network.value :=
    Nat.dvd_trans (blockSize_dvd_blockSize hlen) c.aligned
  refine ⟨?_, by omega⟩
  by_contra hlt
  have hlt : c.network.value < b.network.value + b.size := by omega
  have heq : c.network.value = b.network.value :=
    eq_of_dvd_of_lt b.aligned hdvd (by omega) hlt
  omega

/-- Two blocks overlap if some address lies in both. -/
theorem overlaps_iff {b c : Block} :
    b.overlaps c = true ↔ ∃ a, b.contains a = true ∧ c.contains a = true := by
  rw [overlaps, Bool.or_eq_true]
  constructor
  · rintro (h | h)
    · exact ⟨c.network, h, contains_network c⟩
    · exact ⟨b.network, contains_network b, h⟩
  · rintro ⟨a, hb, hc⟩
    rcases Nat.le_total b.length c.length with hlen | hlen
    · exact Or.inl (contains_of_length_le hlen hc hb)
    · exact Or.inr (contains_of_length_le hlen hb hc)

theorem overlaps_eq_false_iff {b c : Block} : b.overlaps c = false ↔ b.Apart c := by
  rw [← Bool.not_eq_true, overlaps_iff, not_exists]
  exact forall_congr' fun a => by rw [not_and, Bool.not_eq_true]

/-! ## Steps -/

/-- The block `n` steps above `b`, if the addresses reach that far. -/
def stepUp (b : Block) : Nat → Option Block
  | 0 => some b
  | n + 1 => (b.stepUp n).bind next?

theorem length_network_of_stepUp {b c : Block} {n : Nat} (h : b.stepUp n = some c) :
    c.length = b.length ∧ c.network.value = b.network.value + n * b.size := by
  induction n generalizing c with
  | zero =>
    cases h
    exact ⟨rfl, by omega⟩
  | succ n ih =>
    obtain ⟨d, hd, hc⟩ := Option.bind_eq_some_iff.mp h
    obtain ⟨hl, hn⟩ := ih hd
    obtain ⟨hn', hl'⟩ := next?_eq_some hc
    have hsize : d.size = b.size := congrArg blockSize hl
    exact ⟨hl'.trans hl, by rw [hn', hn, hsize, Nat.succ_mul, Nat.add_assoc]⟩

theorem exists_stepUp {b : Block} {n : Nat} (h : b.network.value + n * b.size < 0x100000000) :
    ∃ c, b.stepUp n = some c := by
  induction n with
  | zero => exact ⟨b, rfl⟩
  | succ n ih =>
    rw [Nat.succ_mul] at h
    obtain ⟨d, hd⟩ := ih (by omega)
    obtain ⟨hl, hn⟩ := length_network_of_stepUp hd
    have hsize : d.size = b.size := congrArg blockSize hl
    cases hc : d.next? with
    | some c => exact ⟨c, by rw [stepUp, hd, Option.bind_some, hc]⟩
    | none =>
      have := next?_eq_none hc
      omega

/-- The steps above a block are the blocks of its length, one size apart. -/
theorem stepUp_eq_some {b c : Block} {n : Nat} :
    b.stepUp n = some c ↔
      c.length = b.length ∧ c.network.value = b.network.value + n * b.size := by
  refine ⟨length_network_of_stepUp, fun ⟨hl, hn⟩ => ?_⟩
  obtain ⟨d, hd⟩ := exists_stepUp (n := n) (hn ▸ c.network.value_lt)
  obtain ⟨hl', hn'⟩ := length_network_of_stepUp hd
  rw [hd, ext_of_network (hl'.trans hl.symm) (hn'.trans hn.symm)]

/-- Every block of the same length that is not below `b` is reached. -/
theorem exists_stepUp_of_le {b c : Block} (hl : c.length = b.length)
    (hle : b.network.value ≤ c.network.value) : ∃ n, b.stepUp n = some c := by
  have hdvd : b.size ∣ c.network.value - b.network.value :=
    (Nat.dvd_sub_iff_left hle b.aligned).mpr (hl ▸ c.aligned)
  obtain ⟨n, hn⟩ := hdvd
  exact ⟨n, stepUp_eq_some.mpr ⟨hl, by rw [Nat.mul_comm n]; omega⟩⟩

/-! ## The first free block -/

/-- No address of a block is taken. -/
def IsFree (taken : List Block) (b : Block) : Prop :=
  ∀ t ∈ taken, t.Apart b

/-- The first block from `b` upward, step by step, none of whose addresses is taken. -/
def FirstFree (taken : List Block) (b c : Block) : Prop :=
  ∃ n, b.stepUp n = some c ∧ IsFree taken c ∧
    ∀ k < n, ∀ d, b.stepUp k = some d → ¬IsFree taken d

/-- No block of the length of `b` from `b` up to the last address is free. -/
def NoneFree (taken : List Block) (b : Block) : Prop :=
  ∀ c : Block, c.length = b.length → b.network.value ≤ c.network.value → ¬IsFree taken c

theorem isFree_iff {taken : List Block} {b : Block} :
    IsFree taken b ↔ ∀ t ∈ taken, t.overlaps b = false :=
  forall₂_congr fun _ _ => overlaps_eq_false_iff.symm

theorem not_isFree_iff {taken : List Block} {b : Block} :
    ¬IsFree taken b ↔ ∃ t ∈ taken, t.overlaps b = true := by
  simp [isFree_iff]

theorem FirstFree.unique {taken : List Block} {b c d : Block} (hc : FirstFree taken b c)
    (hd : FirstFree taken b d) : c = d := by
  obtain ⟨m, hm, hcf, hmin⟩ := hc
  obtain ⟨n, hn, hdf, hmin'⟩ := hd
  rcases Nat.lt_trichotomy m n with h | rfl | h
  · exact absurd hcf (hmin' m h c hm)
  · exact Option.some.inj (hm.symm.trans hn)
  · exact absurd hdf (hmin n h d hn)

theorem FirstFree.of_firstFree? {taken : List Block} {b c : Block}
    (h : firstFree? taken b = some c) : FirstFree taken b c := by
  obtain ⟨hl, hle, hfree, hskip⟩ := firstFree?_eq_some h
  obtain ⟨n, hn⟩ := exists_stepUp_of_le hl hle
  refine ⟨n, hn, isFree_iff.mpr hfree, fun k hk d hd => ?_⟩
  obtain ⟨-, hcn⟩ := stepUp_eq_some.mp hn
  obtain ⟨hdl, hdn⟩ := stepUp_eq_some.mp hd
  have hlt : k * b.size < n * b.size := Nat.mul_lt_mul_of_pos_right hk b.size_pos
  exact not_isFree_iff.mpr (hskip d hdl (by omega) (by omega))

theorem NoneFree.of_firstFree? {taken : List Block} {b : Block}
    (h : firstFree? taken b = none) : NoneFree taken b := fun c hl hle =>
  not_isFree_iff.mpr (firstFree?_eq_none h c hl hle)

/-- The search finds the first free block. -/
theorem firstFree?_eq_some_iff {taken : List Block} {b c : Block} :
    firstFree? taken b = some c ↔ FirstFree taken b c := by
  refine ⟨.of_firstFree?, fun h => ?_⟩
  cases hd : firstFree? taken b with
  | some d => rw [h.unique (.of_firstFree? hd)]
  | none =>
    obtain ⟨n, hn, hfree, -⟩ := h
    obtain ⟨hl, hnet⟩ := stepUp_eq_some.mp hn
    exact absurd hfree (NoneFree.of_firstFree? hd c hl (by omega))

/-- The search comes back with nothing exactly if no block is free. -/
theorem firstFree?_eq_none_iff {taken : List Block} {b : Block} :
    firstFree? taken b = none ↔ NoneFree taken b := by
  refine ⟨.of_firstFree?, fun h => ?_⟩
  cases hd : firstFree? taken b with
  | none => rfl
  | some d =>
    obtain ⟨n, hn, hfree, -⟩ := FirstFree.of_firstFree? hd
    obtain ⟨hl, hnet⟩ := stepUp_eq_some.mp hn
    exact absurd hfree (h d hl (by omega))

end NetworkCompiler.Ipv4.Block
