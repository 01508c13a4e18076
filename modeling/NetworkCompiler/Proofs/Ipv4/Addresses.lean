import Mathlib.Data.List.TakeWhile
import NetworkCompiler.Ipv4.Block
import NetworkCompiler.Proofs.Lists
import NetworkCompiler.Proofs.Text.Words

/-!
# Texts and masks of addresses

An address is read back from its dotted form (`ofText?_text`), which has digits and dots in it and
nothing else.

An address is determined by its 32 bits (`bits_inj`), and the mask of a length has that many ones in
front and zeros behind them (`bits_maskOf`). A row of bits has as many ones as leading ones only if
no one stands behind a zero, so a length is found for the masks and for nothing else
(`lengthOfMask?_eq_some`). An address has no length exactly if a one stands behind a zero in it
(`lengthOfMask?_eq_none`).
-/

namespace NetworkCompiler.Ipv4

namespace Address

/-! ## Texts -/

theorem isDigit_of_mem_text {a : Address} {c : Char} (hc : c ∈ a.text.toList) :
    c = '.' ∨ c.isDigit = true := by
  rw [text, Text.joinWith, String.toList_intercalate] at hc
  rcases mem_intercalate hc with hc | ⟨piece, hpiece, hc⟩
  · exact Or.inl (List.mem_singleton.mp hc)
  · obtain ⟨v, hv, rfl⟩ := List.mem_map.mp hpiece
    obtain ⟨n, -, rfl⟩ := List.mem_map.mp hv
    exact Or.inr (Text.Chars.isDigit_of_mem_toString hc)

theorem isSolid_text (a : Address) : Text.Chars.IsSolid a.text.toList := by
  intro c hc
  rcases isDigit_of_mem_text hc with rfl | hdigit
  · decide
  · exact Text.isBlank_of_isAlphanum (by simp [Char.isAlphanum, hdigit])

theorem octet?_toString : ∀ n < 256, octet? (toString n).toList = some (UInt8.ofNat n) := by
  decide +kernel

theorem toList_text (a : Address) :
    a.text.toList = (toString (a.value / 0x1000000)).toList ++
      '.' :: ((toString (a.value / 0x10000 % 256)).toList ++
        '.' :: ((toString (a.value / 0x100 % 256)).toList ++
          '.' :: (toString (a.value % 256)).toList)) := by
  rw [text, Text.joinWith, String.toList_intercalate, List.map_map]
  simp [octets, List.intercalate]

theorem ofOctets_octets (a : Address) :
    ofOctets (.ofNat (a.value / 0x1000000)) (.ofNat (a.value / 0x10000 % 256))
      (.ofNat (a.value / 0x100 % 256)) (.ofNat (a.value % 256)) = a := by
  obtain ⟨v, hv⟩ := a
  simp only [ofOctets, UInt8.toNat_ofNat', mk.injEq]
  omega

/-- An address is read back from its dotted form. -/
theorem ofText?_text (a : Address) : ofText? a.text = some a := by
  have hdot : ∀ n : Nat, '.' ∉ (toString n).toList := fun n hmem =>
    absurd (Text.Chars.isDigit_of_mem_toString hmem) (by decide)
  have hpieces : Text.Chars.splitAt '.' a.text.toList =
      [(toString (a.value / 0x1000000)).toList, (toString (a.value / 0x10000 % 256)).toList,
        (toString (a.value / 0x100 % 256)).toList, (toString (a.value % 256)).toList] := by
    rw [toList_text]
    simp only [Text.Chars.splitAt_append_cons (hdot _), Text.Chars.splitAt_of_not_mem (hdot _)]
  have hfirst : a.value / 0x1000000 < 256 := by
    have := a.value_lt
    omega
  have hrest : ∀ n, n % 256 < 256 := fun n => Nat.mod_lt n (by decide)
  rw [ofText?, hpieces]
  simp only [octet?_toString _ hfirst, octet?_toString _ (hrest _), Option.bind_eq_bind,
    Option.bind_some]
  rw [ofOctets_octets]
  rfl

/-! ## Bits -/

theorem length_bits (a : Address) : a.bits.length = 32 := by
  simp [bits]

theorem getElem?_bits {a : Address} {i : Nat} (hi : i < 32) :
    a.bits[i]? = some (a.value.testBit (31 - i)) := by
  simp [bits, hi]

theorem testBit_eq_false (a : Address) {i : Nat} (hi : 32 ≤ i) : a.value.testBit i = false := by
  have hle : 2 ^ 32 ≤ 2 ^ i := Nat.pow_le_pow_right (by decide) hi
  exact Nat.testBit_lt_two_pow (Nat.lt_of_lt_of_le a.value_lt hle)

theorem bits_inj {a b : Address} : a.bits = b.bits ↔ a = b := by
  refine ⟨fun h => ?_, fun h => h ▸ rfl⟩
  have hvalue : a.value = b.value := by
    apply Nat.eq_of_testBit_eq
    intro i
    by_cases hi : i < 32
    · have hbit := congrArg (·[31 - i]?) h
      simp only [getElem?_bits (show 31 - i < 32 by omega), Option.some.injEq] at hbit
      rwa [show 31 - (31 - i) = i by omega] at hbit
    · rw [testBit_eq_false a (by omega), testBit_eq_false b (by omega)]
  obtain ⟨v, hv⟩ := a
  obtain ⟨w, hw⟩ := b
  simpa using hvalue

/-- No one stands behind a zero. -/
def IsContiguous (a : Address) : Prop :=
  a.bits.Pairwise fun b c => c = true → b = true

end Address

/-! ## Rows of bits -/

/-- A row of bits with as many ones as lead it has zeros behind them. -/
theorem eq_replicate_of_count {l : List Bool} (h : l.count true = (l.takeWhile id).length) :
    l = List.replicate (l.takeWhile id).length true ++
      List.replicate (l.length - (l.takeWhile id).length) false := by
  have hlead : l.takeWhile id = List.replicate (l.takeWhile id).length true :=
    List.eq_replicate_of_mem fun b hb => List.mem_takeWhile_imp hb
  have hcount : (l.dropWhile id).count true = 0 := by
    have htotal := congrArg (List.count true) (List.takeWhile_append_dropWhile (p := id) (l := l))
    rw [List.count_append, h, hlead, List.count_replicate_self, List.length_replicate] at htotal
    omega
  have hbehind : l.dropWhile id = List.replicate (l.dropWhile id).length false := by
    refine List.eq_replicate_of_mem fun b hb => Bool.eq_false_iff.mpr ?_
    rintro rfl
    exact List.count_eq_zero.mp hcount hb
  have hlength : (l.dropWhile id).length = l.length - (l.takeWhile id).length := by
    have := congrArg List.length (List.takeWhile_append_dropWhile (p := id) (l := l))
    rw [List.length_append] at this
    omega
  rw [← hlength, ← hlead, ← hbehind, List.takeWhile_append_dropWhile]

theorem takeWhile_replicate_append (m n : Nat) :
    (List.replicate m true ++ List.replicate n false).takeWhile id = List.replicate m true := by
  rw [List.takeWhile_append_of_pos (by simp)]
  cases n <;> simp [List.replicate_succ]

/-- Ones in front and zeros behind them are the rows in which no one stands behind a zero. -/
theorem pairwise_iff_count {l : List Bool} :
    (l.Pairwise fun b c => c = true → b = true) ↔ l.count true = (l.takeWhile id).length := by
  constructor
  · intro h
    induction l with
    | nil => rfl
    | cons b l ih =>
      obtain ⟨hb, hl⟩ := List.pairwise_cons.mp h
      cases b with
      | true => simp [ih hl]
      | false => simpa [List.count_eq_zero] using fun hmem => hb true hmem rfl
  · intro h
    rw [eq_replicate_of_count h, List.pairwise_append]
    simp [List.pairwise_replicate]

/-! ## Masks -/

namespace Block

theorem testBit_maskOf (length i : Nat) :
    (maskOf length).value.testBit i = (decide (32 - length ≤ i) && decide (i < 32)) := by
  have hvalue : (maskOf length).value = (2 ^ 32 - 1) <<< (32 - length) % 2 ^ 32 := rfl
  rw [hvalue, Nat.testBit_mod_two_pow, Nat.testBit_shiftLeft, Nat.testBit_two_pow_sub_one]
  by_cases hi : i < 32
  · simp [hi]
    omega
  · simp [hi]

/-- The mask of a length has that many ones in front, and zeros behind them. -/
theorem bits_maskOf {length : Nat} (h : length ≤ 32) :
    (maskOf length).bits = List.replicate length true ++ List.replicate (32 - length) false := by
  ext1 i
  by_cases hi : i < 32
  · rw [Address.getElem?_bits hi, testBit_maskOf, List.getElem?_append, List.length_replicate,
      List.getElem?_replicate, List.getElem?_replicate]
    split_ifs with hlength hrest
    · simp
      omega
    · simp
      omega
    · omega
  · rw [List.getElem?_eq_none (by rw [Address.length_bits]; omega), List.getElem?_eq_none]
    simp
    omega

/-- A length is found for the masks, each of which has its own, and for nothing else. -/
theorem lengthOfMask?_eq_some {m : Address} {length : Nat} :
    lengthOfMask? m = some length ↔ length ≤ 32 ∧ m = maskOf length := by
  unfold lengthOfMask?
  constructor
  · intro h
    dsimp only at h
    split at h
    · next hcount =>
      cases h
      have hle : (m.bits.takeWhile id).length ≤ 32 :=
        m.length_bits ▸ (List.takeWhile_prefix id).length_le
      refine ⟨hle, Address.bits_inj.mp ?_⟩
      rw [bits_maskOf hle, ← m.length_bits]
      exact eq_replicate_of_count hcount
    · cases h
  · rintro ⟨hle, rfl⟩
    rw [bits_maskOf hle, takeWhile_replicate_append]
    simp [List.count_append, List.count_replicate]

theorem lengthOfMask?_eq_none {m : Address} : lengthOfMask? m = none ↔ ¬ m.IsContiguous := by
  rw [Address.IsContiguous, pairwise_iff_count, lengthOfMask?]
  simp

/-- A block begins where the bits behind its prefix are cleared. -/
theorem network_ofAddress (a : Address) {length : Nat} (h : length ≤ 32) :
    (ofAddress a length h).network.value = a.value &&& (maskOf length).value := by
  have hvalue : (ofAddress a length h).network.value =
      a.value / 2 ^ (32 - length) * 2 ^ (32 - length) := rfl
  apply Nat.eq_of_testBit_eq
  intro i
  rw [hvalue, Nat.testBit_mul_two_pow, Nat.testBit_div_two_pow, Nat.testBit_and, testBit_maskOf]
  by_cases hi : i < 32
  · by_cases hlength : 32 - length ≤ i
    · simp [hi, hlength]
    · simp [hlength]
  · have hback : i - (32 - length) + (32 - length) = i := by omega
    simp [hi, hback, a.testBit_eq_false (show 32 ≤ i by omega)]

end Block

end NetworkCompiler.Ipv4
