import NetworkCompiler.Ipv4.Block

/-!
# Free blocks

`Block.firstFree?` looks for the first block from a given one upward that shares no address with
the blocks of a list. A block that is taken is left behind in one step (`beyond?`), however large
it is. `firstFree?_eq_some` and `firstFree?_eq_none` say that nothing is overlooked: every block
of the same length that is passed over shares an address with a block of the list.
-/

namespace NetworkCompiler.Ipv4

theorem blockSize_dvd_blockSize {m n : Nat} (h : m ≤ n) : blockSize n ∣ blockSize m :=
  show Nat.pow 2 (32 - n) ∣ Nat.pow 2 (32 - m) from Nat.pow_dvd_pow 2 (by omega)

/-- Two multiples of `s` less than `s` apart are equal. -/
theorem eq_of_dvd_of_lt {s a b : Nat} (ha : s ∣ a) (hb : s ∣ b) (hab : a ≤ b) (hlt : b < a + s) :
    b = a := by
  obtain ⟨j, rfl⟩ := ha
  obtain ⟨k, rfl⟩ := hb
  have hs : 0 < s := by omega
  have hjk : j ≤ k := Nat.le_of_mul_le_mul_left hab hs
  have hkj : k < j + 1 := Nat.lt_of_mul_lt_mul_left (a := s) (by rw [Nat.mul_succ]; exact hlt)
  rw [show k = j by omega]

namespace Block

theorem ext_of_network {b c : Block} (hl : b.length = c.length)
    (hn : b.network.value = c.network.value) : b = c := by
  obtain ⟨⟨v, _⟩, l, _, _⟩ := b
  obtain ⟨⟨w, _⟩, m, _, _⟩ := c
  simp only at hl hn
  subst hl hn
  rfl

/-- A block holds the addresses from its network address up to its size. -/
theorem contains_iff {b : Block} {a : Address} :
    b.contains a = true ↔
      b.network.value ≤ a.value ∧ a.value < b.network.value + b.size := by
  obtain ⟨k, hk⟩ := b.aligned
  have hs : b.size = blockSize b.length := rfl
  have hpos := b.size_pos
  have hdiv : b.network.value / b.size = k := by
    rw [hk, hs, Nat.mul_div_cancel_left _ (hs ▸ hpos)]
  rw [contains, decide_eq_true_eq, hdiv, Nat.div_eq_iff hpos, hk, ← hs, Nat.mul_comm]
  omega

theorem network_eq_of_ofAddress? {a : Address} {n : Nat} {b : Block} (h : ofAddress? a n = some b)
    (ha : blockSize n ∣ a.value) : b.network = a ∧ b.length = n := by
  unfold ofAddress? at h
  split at h
  · cases h
    refine ⟨?_, rfl⟩
    obtain ⟨v, hv⟩ := a
    simp only [ofAddress, Address.mk.injEq]
    exact Nat.div_mul_cancel ha
  · cases h

theorem next?_eq_some {b c : Block} (h : b.next? = some c) :
    c.network.value = b.network.value + b.size ∧ c.length = b.length := by
  unfold next? Address.add? at h
  split at h
  · have ⟨hn, hl⟩ := network_eq_of_ofAddress? h (Nat.dvd_add b.aligned (Nat.dvd_refl _))
    exact ⟨by rw [hn], hl⟩
  · cases h

theorem next?_eq_none {b : Block} (h : b.next? = none) :
    0x100000000 ≤ b.network.value + b.size := by
  unfold next? Address.add? at h
  split at h
  · simp [ofAddress?, b.length_le] at h
  · omega

/-- The first block of the length of `b` that lies behind both `b` and `t`, for blocks that share
an address. -/
def beyond? (b t : Block) : Option Block :=
  if b.length ≤ t.length then b.next?
  else t.next?.bind fun c => ofAddress? c.network b.length

theorem le_of_overlaps {b t : Block} (h : t.overlaps b = true) (hlen : t.length ≤ b.length) :
    t.network.value ≤ b.network.value ∧ b.network.value < t.network.value + t.size := by
  rcases Bool.or_eq_true_iff.mp h with h | h
  · exact contains_iff.mp h
  · have hc := contains_iff.mp h
    have heq := eq_of_dvd_of_lt b.aligned
      (Nat.dvd_trans (blockSize_dvd_blockSize hlen) t.aligned) hc.1 hc.2
    have := t.size_pos
    omega

theorem beyond?_eq_some {b t c : Block} (h : b.beyond? t = some c) (ht : t.overlaps b = true) :
    c.length = b.length ∧ b.network.value < c.network.value ∧
      ∀ d : Block, d.length = b.length → b.network.value ≤ d.network.value →
        d.network.value < c.network.value → t.overlaps d = true := by
  unfold beyond? at h
  split at h
  · obtain ⟨hn, hl⟩ := next?_eq_some h
    have := b.size_pos
    refine ⟨hl, by omega, fun d hd hbd hdc => ?_⟩
    have hdb := eq_of_dvd_of_lt b.aligned (hd ▸ d.aligned) hbd (hn ▸ hdc)
    rwa [ext_of_network hd hdb]
  · rename_i hlen
    obtain ⟨t', ht', h⟩ := Option.bind_eq_some_iff.mp h
    obtain ⟨hn, hl⟩ := next?_eq_some ht'
    have hal : blockSize b.length ∣ t'.network.value :=
      Nat.dvd_trans (blockSize_dvd_blockSize (by omega)) t'.aligned
    obtain ⟨hc, hcl⟩ := network_eq_of_ofAddress? h hal
    have hle := le_of_overlaps ht (by omega)
    rw [hc]
    refine ⟨hcl, by omega, fun d _ hbd hdc => ?_⟩
    exact Bool.or_eq_true_iff.mpr (.inl (contains_iff.mpr ⟨by omega, by omega⟩))

theorem beyond?_eq_none {b t : Block} (h : b.beyond? t = none) (ht : t.overlaps b = true)
    (d : Block) (hd : d.length = b.length) (hbd : b.network.value ≤ d.network.value) :
    t.overlaps d = true := by
  have hsize := d.network_add_size_le
  unfold beyond? at h
  split at h
  · have hn := next?_eq_none h
    have hs : d.size = b.size := congrArg blockSize hd
    rwa [ext_of_network hd (by omega)]
  · rename_i hlen
    have hle := le_of_overlaps ht (by omega)
    have hlt := d.network.value_lt
    cases hn : t.next? with
    | none =>
      have := next?_eq_none hn
      exact Bool.or_eq_true_iff.mpr (.inl (contains_iff.mpr ⟨by omega, by omega⟩))
    | some t' => simp [hn, ofAddress?, b.length_le] at h

/-- The first block from `b` upward that shares no address with the blocks of `taken`. -/
def firstFree? (taken : List Block) (b : Block) : Option Block :=
  match ht : taken.find? fun t => t.overlaps b with
  | none => some b
  | some t =>
    match hc : b.beyond? t with
    | none => none
    | some c =>
      have := (beyond?_eq_some hc (List.find?_some (p := fun t : Block => t.overlaps b) ht)).2.1
      have := c.network.value_lt
      firstFree? taken c
termination_by 0x100000000 - b.network.value

theorem firstFree?_eq_some {taken : List Block} {b c : Block} (h : firstFree? taken b = some c) :
    c.length = b.length ∧ b.network.value ≤ c.network.value ∧
      (∀ t ∈ taken, t.overlaps c = false) ∧
      ∀ d : Block, d.length = b.length → b.network.value ≤ d.network.value →
        d.network.value < c.network.value → ∃ t ∈ taken, t.overlaps d = true := by
  fun_induction firstFree? taken b with
  | case1 b ht =>
    cases h
    refine ⟨rfl, Nat.le_refl _, fun t hmem => ?_, fun d _ h1 h2 => by omega⟩
    simpa using List.find?_eq_none.mp ht t hmem
  | case2 => cases h
  | case3 b t ht b' hb' _ _ ih =>
    have hover : t.overlaps b = true := List.find?_some (p := fun t : Block => t.overlaps b) ht
    obtain ⟨hl, hn, hskip⟩ := beyond?_eq_some hb' hover
    obtain ⟨hcl, hbc, hfree, hpast⟩ := ih h
    refine ⟨hcl.trans hl, by omega, hfree, fun d hd h1 h2 => ?_⟩
    by_cases hd' : d.network.value < b'.network.value
    · exact ⟨t, List.mem_of_find?_eq_some ht, hskip d hd h1 hd'⟩
    · exact hpast d (hd.trans hl.symm) (by omega) h2

theorem firstFree?_eq_none {taken : List Block} {b : Block} (h : firstFree? taken b = none)
    (d : Block) (hd : d.length = b.length) (hbd : b.network.value ≤ d.network.value) :
    ∃ t ∈ taken, t.overlaps d = true := by
  fun_induction firstFree? taken b with
  | case1 => cases h
  | case2 b t ht hb' =>
    have hover : t.overlaps b = true := List.find?_some (p := fun t : Block => t.overlaps b) ht
    exact ⟨t, List.mem_of_find?_eq_some ht, beyond?_eq_none hb' hover d hd hbd⟩
  | case3 b t ht b' hb' _ _ ih =>
    have hover : t.overlaps b = true := List.find?_some (p := fun t : Block => t.overlaps b) ht
    obtain ⟨hl, hn, hskip⟩ := beyond?_eq_some hb' hover
    by_cases hd' : d.network.value < b'.network.value
    · exact ⟨t, List.mem_of_find?_eq_some ht, hskip d hd hbd hd'⟩
    · exact ih h (hd.trans hl.symm) (by omega)

end Block

end NetworkCompiler.Ipv4
