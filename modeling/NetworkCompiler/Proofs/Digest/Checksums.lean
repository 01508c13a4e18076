import Mathlib.Algebra.CharP.Two
import Mathlib.Algebra.Field.ZMod
import Mathlib.Algebra.Polynomial.Div
import Mathlib.Data.Nat.Digits.Defs
import Mathlib.RingTheory.Coprime.Lemmas
import Mathlib.Tactic.LinearCombination
import NetworkCompiler.Digest.Checksums
import NetworkCompiler.Proofs.Text.Reading

/-!
# Checksums as remainders

A word is a polynomial over two elements whose constant term is its lowest bit (`toPoly`), and a
row of octets is one whose highest coefficients are the first octet (`octetsPoly`). A step of the
checksum multiplies by `X` modulo the generator (`toPoly_crcShift`), so an octet is taken in behind
the others (`toPoly_crcByte`) and a row of octets leaves its remainder (`toPoly_crcBytes`).

The generator has a constant term and so no factor in common with `X`. Two files of the same length
that differ in a window have checksums that differ by the window's difference and a power of `X`,
and the generator divides no window of four octets. `cksum_exact` puts both together.
-/

open Polynomial

namespace NetworkCompiler.Digest

/-! ## Words -/

section Words

variable {n : Nat} {v w : BitVec n}

/-- The polynomial of a word : its lowest bit is the constant term. -/
noncomputable def toPoly (w : BitVec n) : (ZMod 2)[X] :=
  ∑ i ∈ Finset.range n, if w.getLsbD i then X ^ i else 0

theorem coeff_toPoly (w : BitVec n) (i : Nat) :
    (toPoly w).coeff i = if w.getLsbD i then 1 else 0 := by
  have hterm : ∀ j, (if w.getLsbD j then X ^ j else 0 : (ZMod 2)[X]).coeff i =
      if i = j then (if w.getLsbD j then 1 else 0) else 0 := fun j => by
    split <;> simp [coeff_X_pow]
  rw [toPoly, finsetSum_coeff, Finset.sum_congr rfl fun j _ => hterm j, Finset.sum_ite_eq]
  by_cases hi : i < n
  · simp [hi]
  · simp [hi, BitVec.getLsbD_of_ge w i (by omega)]

theorem degree_toPoly_lt (w : BitVec n) : (toPoly w).degree < n := by
  rw [degree_lt_iff_coeff_zero]
  intro i hi
  simp [coeff_toPoly, BitVec.getLsbD_of_ge w i hi]

theorem toPoly_inj : toPoly v = toPoly w ↔ v = w := by
  refine ⟨fun h => BitVec.eq_of_getLsbD_eq fun i _ => ?_, fun h => h ▸ rfl⟩
  have hcoeff := congrArg (coeff · i) h
  simp only [coeff_toPoly] at hcoeff
  cases hv : v.getLsbD i <;> cases hw : w.getLsbD i <;> simp_all

theorem toPoly_xor (v w : BitVec n) : toPoly (v ^^^ w) = toPoly v + toPoly w := by
  ext i
  rw [coeff_add, coeff_toPoly, coeff_toPoly, coeff_toPoly, BitVec.getLsbD_xor]
  cases v.getLsbD i <;> cases w.getLsbD i <;> decide

/-- The highest bit of a word leaves it when the word is moved up. -/
theorem toPoly_mul_X (w : BitVec 32) :
    toPoly w * X = toPoly (w <<< 1) + if w.msb then X ^ 32 else 0 := by
  ext i
  cases i with
  | zero => cases w.msb <;> simp [coeff_toPoly, coeff_X_pow]
  | succ i =>
    have htop : (if w.msb then X ^ 32 else 0 : (ZMod 2)[X]).coeff (i + 1) =
        if w.getLsbD i ∧ i = 31 then 1 else 0 := by
      rw [BitVec.msb_eq_getLsbD_last]
      by_cases hi : i = 31
      · subst hi
        split_ifs <;> simp_all [coeff_X_pow]
      · split_ifs <;> simp_all [coeff_X_pow]
    rw [coeff_mul_X, coeff_add, coeff_toPoly, coeff_toPoly, htop]
    by_cases hbit : w.getLsbD i
    · have hlt : i < 32 := BitVec.lt_of_getLsbD hbit
      by_cases hi : i = 31
      · simp [hi]
      · simp [hbit, hi, show i + 1 < 32 by omega]
    · simp [hbit]

theorem toPoly_octet (b : UInt8) :
    toPoly (b.toUInt32 <<< 24).toBitVec = toPoly b.toBitVec * X ^ 24 := by
  ext i
  rw [coeff_mul_X_pow', coeff_toPoly, coeff_toPoly]
  by_cases hbit : b.toBitVec.getLsbD (i - 24)
  · have hlt := BitVec.lt_of_getLsbD hbit
    by_cases hi : 24 ≤ i
    · simp [hbit, hi, show i < 32 by omega]
    · simp [hi]
  · simp [hbit]

end Words

/-! ## The generator -/

/-- The generator of the checksum. -/
noncomputable def generator : (ZMod 2)[X] :=
  X ^ 32 + X ^ 26 + X ^ 23 + X ^ 22 + X ^ 16 + X ^ 12 + X ^ 11 + X ^ 10 + X ^ 8 + X ^ 7 + X ^ 5 +
    X ^ 4 + X ^ 2 + X + 1

theorem generator_eq : generator = X ^ 32 + toPoly crcGenerator.toBitVec := by
  simp only [toPoly, Finset.sum_range_succ, crcGenerator, generator]
  simp
  ring

theorem monic_generator : generator.Monic := by
  rw [generator_eq]
  exact monic_X_pow_add (degree_toPoly_lt _)

theorem degree_generator : generator.degree = (32 : Nat) := by
  have hlt : (toPoly crcGenerator.toBitVec).degree < (X ^ 32 : (ZMod 2)[X]).degree := by
    rw [degree_X_pow]
    exact degree_toPoly_lt _
  rw [generator_eq, degree_add_eq_left_of_degree_lt hlt, degree_X_pow]

theorem isCoprime_generator_X : IsCoprime generator X := by
  refine ⟨1, -(X ^ 31 + X ^ 25 + X ^ 22 + X ^ 21 + X ^ 15 + X ^ 11 + X ^ 10 + X ^ 9 + X ^ 7 +
    X ^ 6 + X ^ 4 + X ^ 3 + X + 1), ?_⟩
  unfold generator
  ring

/-- A word is its own remainder. -/
theorem toPoly_modByMonic (w : BitVec 32) : toPoly w %ₘ generator = toPoly w := by
  rw [modByMonic_eq_self_iff monic_generator, degree_generator]
  exact degree_toPoly_lt w

theorem modByMonic_mul (p q : (ZMod 2)[X]) :
    (p %ₘ generator * q) %ₘ generator = (p * q) %ₘ generator := by
  refine modByMonic_eq_of_dvd_sub monic_generator ?_
  rw [← sub_mul]
  exact (dvd_modByMonic_sub p generator).mul_right q

/-! ## Steps -/

theorem toBitVec_crcShift (c : UInt32) : (crcShift c).toBitVec =
    if c.toBitVec.msb then c.toBitVec <<< 1 ^^^ crcGenerator.toBitVec else c.toBitVec <<< 1 := by
  have htop : (0x80000000 : UInt32).toBitVec = BitVec.twoPow 32 31 := by decide
  have hbit : c &&& 0x80000000 = 0 ↔ c.toBitVec.msb = false := by
    rw [← UInt32.toBitVec_inj, UInt32.toBitVec_and, htop, BitVec.and_twoPow,
      BitVec.msb_eq_getLsbD_last]
    split <;> simp_all
  unfold crcShift
  by_cases hmsb : c.toBitVec.msb
  · rw [if_neg (by simp [hbit, hmsb]), if_pos hmsb]
    simp
  · rw [if_pos (by simp [hbit, hmsb]), if_neg hmsb]
    simp

/-- A step multiplies by `X`. -/
theorem toPoly_crcShift (c : UInt32) :
    toPoly (crcShift c).toBitVec = (toPoly c.toBitVec * X) %ₘ generator := by
  have hstep : toPoly c.toBitVec * X =
      toPoly (crcShift c).toBitVec + if c.toBitVec.msb then generator else 0 := by
    rw [toPoly_mul_X, toBitVec_crcShift]
    split
    · have htwice : toPoly crcGenerator.toBitVec + toPoly crcGenerator.toBitVec = 0 :=
        CharTwo.add_self_eq_zero _
      rw [toPoly_xor, generator_eq]
      linear_combination -htwice
    · rfl
  rw [hstep, add_modByMonic, toPoly_modByMonic]
  split
  · rw [modByMonic_self monic_generator, add_zero]
  · rw [zero_modByMonic, add_zero]

theorem toPoly_crcShifts (n : Nat) (c : UInt32) :
    toPoly (crcShifts n c).toBitVec = (toPoly c.toBitVec * X ^ n) %ₘ generator := by
  induction n generalizing c with
  | zero => rw [crcShifts, pow_zero, mul_one, toPoly_modByMonic]
  | succ n ih => rw [crcShifts, ih, toPoly_crcShift, modByMonic_mul, mul_assoc, ← pow_succ']

/-- An octet is taken in behind the octets before it. -/
theorem toPoly_crcByte (c : UInt32) (b : UInt8) : toPoly (crcByte c b).toBitVec =
    (toPoly c.toBitVec * X ^ 8 + toPoly b.toBitVec * X ^ 32) %ₘ generator := by
  rw [crcByte, toPoly_crcShifts, UInt32.toBitVec_xor, toPoly_xor, toPoly_octet, add_mul, mul_assoc,
    ← pow_add]

/-! ## Rows of octets -/

/-- The polynomial of a row of octets : the first octet has the highest coefficients. -/
noncomputable def octetsPoly : List UInt8 → (ZMod 2)[X]
  | [] => 0
  | b :: bytes => toPoly b.toBitVec * X ^ (8 * bytes.length) + octetsPoly bytes

theorem octetsPoly_append (v w : List UInt8) :
    octetsPoly (v ++ w) = octetsPoly v * X ^ (8 * w.length) + octetsPoly w := by
  induction v with
  | nil => simp [octetsPoly]
  | cons b v ih =>
    rw [List.cons_append, octetsPoly, octetsPoly, ih, List.length_append]
    ring

theorem degree_octetsPoly_lt (bytes : List UInt8) :
    (octetsPoly bytes).degree < (8 * bytes.length : Nat) := by
  induction bytes with
  | nil => simp [octetsPoly]
  | cons b bytes ih =>
    rw [degree_lt_iff_coeff_zero] at ih ⊢
    intro m hm
    rw [List.length_cons] at hm
    have hoctet := (degree_lt_iff_coeff_zero _ _).mp (degree_toPoly_lt b.toBitVec)
      (m - 8 * bytes.length) (by omega)
    rw [octetsPoly, coeff_add, coeff_mul_X_pow', if_pos (by omega), hoctet, ih m (by omega),
      add_zero]

/-- Octets of the same number are the same if their polynomials are. -/
theorem octetsPoly_inj {v w : List UInt8} (hlen : v.length = w.length)
    (h : octetsPoly v = octetsPoly w) : v = w := by
  have hdivision : ∀ (b : UInt8) (bytes : List UInt8),
      octetsPoly (b :: bytes) /ₘ X ^ (8 * bytes.length) = toPoly b.toBitVec ∧
        octetsPoly (b :: bytes) %ₘ X ^ (8 * bytes.length) = octetsPoly bytes := fun b bytes => by
    refine div_modByMonic_unique _ _ (monic_X_pow _) ⟨?_, ?_⟩
    · rw [octetsPoly]
      ring
    · rw [degree_X_pow]
      exact degree_octetsPoly_lt bytes
  induction v generalizing w with
  | nil => simpa [eq_comm] using hlen
  | cons b v ih =>
    cases w with
    | nil => simp at hlen
    | cons c w =>
      have hlen : v.length = w.length := by simpa using hlen
      obtain ⟨hquotient, hremainder⟩ := hdivision b v
      obtain ⟨hquotient', hremainder'⟩ := hdivision c w
      rw [h, hlen] at hquotient hremainder
      have hb : b = c := UInt8.toBitVec_inj.mp (toPoly_inj.mp (hquotient.symm.trans hquotient'))
      rw [hb, ih hlen (hremainder.symm.trans hremainder')]

/-- Octets leave the remainder of their polynomial, behind what was there before. -/
theorem toPoly_crcBytes (c : UInt32) (bytes : List UInt8) :
    toPoly (crcBytes c bytes).toBitVec =
      (toPoly c.toBitVec * X ^ (8 * bytes.length) + octetsPoly bytes * X ^ 32) %ₘ generator := by
  induction bytes generalizing c with
  | nil => simp [crcBytes, octetsPoly, toPoly_modByMonic]
  | cons b bytes ih =>
    have hcons : crcBytes c (b :: bytes) = crcBytes (crcByte c b) bytes := rfl
    have hsum : (toPoly c.toBitVec * X ^ 8 + toPoly b.toBitVec * X ^ 32) * X ^ (8 * bytes.length) +
        octetsPoly bytes * X ^ 32 =
          toPoly c.toBitVec * X ^ (8 * (b :: bytes).length) + octetsPoly (b :: bytes) * X ^ 32 := by
      rw [octetsPoly, List.length_cons]
      ring
    rw [hcons, ih, toPoly_crcByte, add_modByMonic, modByMonic_mul, ← add_modByMonic, hsum]

/-! ## Checksums -/

theorem lengthOctets_eq (n : Nat) : lengthOctets n = (Nat.digits 256 n).map UInt8.ofNat := by
  induction n using Nat.strongRecOn with
  | ind n ih =>
    unfold lengthOctets
    split
    · next h => simp [h]
    · next h =>
      rw [ih _ (by omega), Nat.digits_def' (by decide) (Nat.pos_of_ne_zero h), List.map_cons]
      congr 1
      simp [← UInt8.toNat_inj]

/-- What a checksum divides : the octets of a file, and behind them those of their number, lowest
first and without leading zeros. -/
noncomputable def messagePoly (bytes : List UInt8) : (ZMod 2)[X] :=
  octetsPoly (bytes ++ (Nat.digits 256 bytes.length).map UInt8.ofNat)

/-- The checksum is the complement of a remainder. -/
theorem exists_remainder (bytes : List UInt8) : ∃ r : UInt32, crc bytes = ~~~ r ∧
    toPoly r.toBitVec = (messagePoly bytes * X ^ 32) %ₘ generator := by
  refine ⟨crcBytes 0 (bytes ++ lengthOctets bytes.length), ?_, ?_⟩
  · rw [crc, crcBytes, crcBytes, crcBytes, List.foldl_append]
  · rw [messagePoly, ← lengthOctets_eq, toPoly_crcBytes]
    simp [toPoly]

/-- Files of one length that differ in a window differ by the window's difference. -/
theorem exists_messagePoly_sub {v w : List UInt8} (hlen : v.length = w.length)
    (before after : List UInt8) :
    ∃ n, messagePoly (before ++ v ++ after) - messagePoly (before ++ w ++ after) =
      (octetsPoly v - octetsPoly w) * X ^ n := by
  simp only [messagePoly, List.append_assoc, octetsPoly_append, List.length_append, hlen]
  refine ⟨8 * (after.length + (List.map UInt8.ofNat (Nat.digits 256 (before.length +
    (w.length + after.length)))).length), ?_⟩
  ring

/-- The generator divides no difference of four octets, wherever they stand. -/
theorem octetsPoly_eq_of_dvd {v w : List UInt8} {n : Nat} (hlen : v.length = w.length)
    (hwindow : v.length ≤ 4) (h : generator ∣ (octetsPoly v - octetsPoly w) * X ^ n) :
    octetsPoly v = octetsPoly w := by
  have hdvd := isCoprime_generator_X.pow_right.dvd_of_dvd_mul_right h
  have hlt : ∀ u : List UInt8, u.length ≤ 4 → (octetsPoly u).degree < (32 : Nat) := fun u hu => by
    refine (degree_octetsPoly_lt u).trans_le ?_
    exact_mod_cast (by omega : 8 * u.length ≤ 32)
  refine sub_eq_zero.mp (eq_zero_of_dvd_of_degree_lt hdvd ?_)
  rw [degree_generator]
  exact (degree_sub_le _ _).trans_lt (max_lt (hlt v hwindow) (hlt w (hlen ▸ hwindow)))

/-- A window of four octets is told from every other. -/
theorem eq_of_crc_eq {before after v w : List UInt8} (hlen : v.length = w.length)
    (hwindow : v.length ≤ 4) (h : crc (before ++ v ++ after) = crc (before ++ w ++ after)) :
    v = w := by
  obtain ⟨r, hr, hremainder⟩ := exists_remainder (before ++ v ++ after)
  obtain ⟨s, hs, hremainder'⟩ := exists_remainder (before ++ w ++ after)
  have hrs : r = s := by
    rw [hr, hs] at h
    simpa using h
  obtain ⟨n, hn⟩ := exists_messagePoly_sub hlen before after
  refine octetsPoly_inj hlen (octetsPoly_eq_of_dvd hlen hwindow (n := n + 32) ?_)
  rw [pow_add, ← mul_assoc, ← hn, sub_mul, ← modByMonic_eq_zero_iff_dvd monic_generator,
    sub_modByMonic, ← hremainder, ← hremainder', hrs, sub_self]

/-- Only the four octets from `k` on differ. -/
def DifferOnlyAt (k : Nat) (a b : List UInt8) : Prop :=
  ∀ i, a[i]? ≠ b[i]? → k ≤ i ∧ i < k + 4

/-- Files that differ in four octets are a window between what they share. -/
theorem DifferOnlyAt.eq_append {k : Nat} {a b : List UInt8} (h : DifferOnlyAt k a b) :
    b = a.take k ++ (b.drop k).take 4 ++ a.drop (k + 4) := by
  have hshared : ∀ i, i < k ∨ k + 4 ≤ i → a[i]? = b[i]? := fun i hi => by
    by_contra hne
    have := h i hne
    omega
  have hbefore : a.take k = b.take k := by
    ext1 i
    rw [List.getElem?_take, List.getElem?_take]
    split
    · next hi => exact hshared i (.inl hi)
    · rfl
  have hafter : a.drop (k + 4) = b.drop (k + 4) := by
    ext1 i
    rw [List.getElem?_drop, List.getElem?_drop]
    exact hshared _ (.inr (Nat.le_add_right _ _))
  rw [hbefore, hafter, List.append_assoc, ← List.drop_drop, List.take_append_drop,
    List.take_append_drop]

/-- The number on the checksum line is the complement of the remainder that the message leaves, 32
places up, on division by the generator. So the lines of two files of the same length that differ
only in four octets are not the same. -/
theorem cksum_exact :
    (∀ bytes, ∃ r : UInt32, cksum bytes = s!"{(~~~ r).toNat} {bytes.length}" ∧
      toPoly r.toBitVec = (messagePoly bytes * X ^ 32) %ₘ generator) ∧
    ∀ (a b : List UInt8) (k : Nat), a.length = b.length → a ≠ b → DifferOnlyAt k a b →
      cksum a ≠ cksum b := by
  refine ⟨fun bytes => ?_, fun a b k hlen hne hwindow h => hne ?_⟩
  · obtain ⟨r, hr, hremainder⟩ := exists_remainder bytes
    exact ⟨r, by rw [cksum, hr], hremainder⟩
  · have hcrc : crc a = crc b := by
      rw [cksum, cksum, hlen] at h
      have hnumbers : toString (crc a).toNat = toString (crc b).toNat := by simpa using h
      exact UInt32.toNat_inj.mp (Text.Chars.toString_inj.mp hnumbers)
    have ha : a = a.take k ++ (a.drop k).take 4 ++ a.drop (k + 4) := by
      rw [List.append_assoc, ← List.drop_drop, List.take_append_drop, List.take_append_drop]
    have hb := hwindow.eq_append
    have hwindows : ((a.drop k).take 4).length = ((b.drop k).take 4).length := by
      simp [hlen]
    rw [ha, hb] at hcrc
    rw [ha, hb, eq_of_crc_eq hwindows (List.length_take_le _ _) hcrc]

/-- One letter of a greeting is another. -/
theorem cksum_exact_greeting :
    let hello : List UInt8 := [104, 101, 108, 108, 111, 10]
    let hallo : List UInt8 := [104, 97, 108, 108, 111, 10]
    cksum hello = "3015617425 6" ∧ DifferOnlyAt 1 hello hallo ∧ cksum hello ≠ cksum hallo := by
  intro hello hallo
  have hwindow : DifferOnlyAt 1 hello hallo := by
    intro i hi
    match i with
    | 0 => exact absurd rfl hi
    | 1 => decide
    | i + 2 => exact absurd rfl hi
  exact ⟨by decide +kernel, hwindow, cksum_exact.2 hello hallo 1 rfl (by decide) hwindow⟩

end NetworkCompiler.Digest
