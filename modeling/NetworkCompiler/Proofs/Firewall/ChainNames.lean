import Mathlib.Data.List.Basic
import NetworkCompiler.Firewall.Endpoint
import NetworkCompiler.Proofs.Mac
import NetworkCompiler.Proofs.Text.Reading

/-!
# Distinct chains

An encoded label is read back octet by octet (`decodeLabel?_encodeLabel`) : an `x` is always the
beginning of an escape, because the letter itself is escaped. The encoding has letters and digits
only, and so no underscore. A chain name then tells both its label and what the chain is for
(`encodeLabel_append_inj`), and the chains of different labels never meet (`chains_of_labels`).
-/

namespace NetworkCompiler

/-! ## Encoded labels -/

/-- A hexadecimal digit. -/
def hexDigit (n : Nat) : Char :=
  if n < 10 then Char.ofNat (48 + n) else Char.ofNat (87 + n)

theorem hexDigit_ne_underscore : ∀ n < 16, hexDigit n ≠ '_' := by
  decide

theorem encodeLabelByte_eq (b : UInt8) :
    (isPlainLabelByte b = true ∧ encodeLabelByte b = [Char.ofNat b.toNat]) ∨
      encodeLabelByte b = ['x', hexDigit (b.toNat / 16), hexDigit (b.toNat % 16)] := by
  unfold encodeLabelByte
  split
  · next h => exact Or.inl ⟨h, rfl⟩
  · refine Or.inr (congrArg (List.cons 'x') ?_)
    rw [Digest.hex, String.toList_ofList]
    rfl

theorem ofNat_ne_of_isPlainLabelByte {b : UInt8} (h : isPlainLabelByte b = true) :
    (Char.ofNat b.toNat).toNat = b.toNat ∧ Char.ofNat b.toNat ≠ 'x' ∧ Char.ofNat b.toNat ≠ '_' := by
  simp only [isPlainLabelByte, Bool.and_eq_true, decide_eq_true_eq] at h
  obtain ⟨⟨hlt, halnum⟩, hx⟩ := h
  refine ⟨toNat_ofNat_octet b, hx, fun hunder => ?_⟩
  rw [hunder] at halnum
  revert halnum
  decide

theorem underscore_notMem_encodeLabelByte (b : UInt8) : '_' ∉ encodeLabelByte b := by
  have hb := b.toNat_lt
  rcases encodeLabelByte_eq b with ⟨hplain, h⟩ | h <;> rw [h]
  · simpa using (ofNat_ne_of_isPlainLabelByte hplain).2.2.symm
  · simp only [List.mem_cons, List.not_mem_nil, or_false, not_or]
    exact ⟨by decide, (hexDigit_ne_underscore _ (by omega)).symm,
      (hexDigit_ne_underscore _ (by omega)).symm⟩

/-- The octets that an encoded label stands for. Behind an `x` stand the two digits of one octet, and
any other character is an octet of its own. -/
def decodeLabel? : List Char → Option (List UInt8)
  | [] => some []
  | c :: cs =>
    if c = 'x' then
      match cs with
      | high :: low :: rest =>
        (Mac.octet? [high, low]).bind fun b => (decodeLabel? rest).map (b :: ·)
      | _ => none
    else (decodeLabel? cs).map (UInt8.ofNat c.toNat :: ·)

theorem decodeLabel?_cons_of_ne {c : Char} (h : c ≠ 'x') (cs : List Char) :
    decodeLabel? (c :: cs) = (decodeLabel? cs).map (UInt8.ofNat c.toNat :: ·) := by
  rw [decodeLabel?.eq_def]
  exact if_neg h

theorem decodeLabel?_escape (high low : Char) (cs : List Char) :
    decodeLabel? ('x' :: high :: low :: cs) =
      (Mac.octet? [high, low]).bind fun b => (decodeLabel? cs).map (b :: ·) := by
  rw [decodeLabel?.eq_def]
  exact if_pos rfl

/-- The first octet of an encoded label is read back, whatever stands behind it. -/
theorem decodeLabel?_encodeLabelByte_append (b : UInt8) (cs : List Char) :
    decodeLabel? (encodeLabelByte b ++ cs) = (decodeLabel? cs).map (b :: ·) := by
  by_cases hplain : isPlainLabelByte b = true
  · obtain ⟨hvalue, hx, -⟩ := ofNat_ne_of_isPlainLabelByte hplain
    rw [encodeLabelByte, if_pos hplain, List.singleton_append, decodeLabel?_cons_of_ne hx, hvalue,
      UInt8.ofNat_toNat]
  · have hdigits : encodeLabelByte b = 'x' :: Mac.digitsOf b := if_neg hplain
    have hoctet := (Mac.octet?_digitsOf b).1
    rw [Mac.digitsOf_eq] at hdigits hoctet
    rw [hdigits]
    refine (decodeLabel?_escape _ _ cs).trans ?_
    rw [hoctet, Option.bind_some]

theorem decodeLabel?_flatMap (bs : List UInt8) :
    decodeLabel? (bs.flatMap encodeLabelByte) = some bs := by
  induction bs with
  | nil => rfl
  | cons b bs ih => rw [List.flatMap_cons, decodeLabel?_encodeLabelByte_append, ih, Option.map_some]

/-- The octets of a label are read back from its encoding. -/
theorem decodeLabel?_encodeLabel (label : String) :
    decodeLabel? (encodeLabel label).toList = some label.toUTF8.toList := by
  rw [encodeLabel, String.toList_ofList, decodeLabel?_flatMap]

/-- Different labels are encoded differently. -/
theorem encodeLabel_inj {l l' : String} (h : encodeLabel l = encodeLabel l') : l = l' := by
  have hread := decodeLabel?_encodeLabel l
  rw [h, decodeLabel?_encodeLabel] at hread
  exact toUTF8_toList_inj (Option.some.inj hread).symm

theorem underscore_notMem_encodeLabel (l : String) : '_' ∉ (encodeLabel l).toList := by
  rw [encodeLabel, String.toList_ofList, List.mem_flatMap]
  rintro ⟨b, -, hb⟩
  exact underscore_notMem_encodeLabelByte b hb

/-! ## Characters -/

theorem isAlphanum_hexDigit : ∀ n < 16, (hexDigit n).isAlphanum = true := by
  decide

/-- An encoded label has letters and digits only. -/
theorem isAlphanum_of_mem_encodeLabel {label : String} {c : Char}
    (hc : c ∈ (encodeLabel label).toList) : c.isAlphanum = true := by
  rw [encodeLabel, String.toList_ofList] at hc
  obtain ⟨b, -, hc⟩ := List.mem_flatMap.mp hc
  have hb := b.toNat_lt
  rcases encodeLabelByte_eq b with ⟨hplain, h⟩ | h
  · rw [h, List.mem_singleton] at hc
    simp only [isPlainLabelByte, Bool.and_eq_true] at hplain
    exact hc ▸ hplain.1.2
  · simp only [h, List.mem_cons, List.not_mem_nil, or_false] at hc
    rcases hc with rfl | rfl | rfl
    · decide
    · exact isAlphanum_hexDigit _ (by omega)
    · exact isAlphanum_hexDigit _ (by omega)

theorem utf8Size_of_isAlphanum {c : Char} (h : c.isAlphanum = true) : c.utf8Size = 1 := by
  delta Char.isAlphanum Char.isAlpha Char.isUpper Char.isLower Char.isDigit at h
  rw [Char.utf8Size_eq_one_iff]
  simp [UInt32.le_iff_toNat_le] at h ⊢
  omega

/-- A text of letters and digits has as many octets as characters. -/
theorem utf8ByteSize_of_isAlphanum {s : String} (h : ∀ c ∈ s.toList, c.isAlphanum = true) :
    s.utf8ByteSize = s.length := by
  have hlist : ∀ {cs : List Char}, (∀ c ∈ cs, c.isAlphanum = true) →
      (String.ofList cs).utf8ByteSize = cs.length := by
    intro cs hcs
    induction cs with
    | nil => rfl
    | cons c cs ih =>
      obtain ⟨hc, hcs⟩ := List.forall_mem_cons.mp hcs
      rw [String.ofList_cons, String.utf8ByteSize_append, String.utf8ByteSize_singleton,
        utf8Size_of_isAlphanum hc, ih hcs, List.length_cons, Nat.add_comm]
  rw [← String.length_toList, ← hlist h, String.ofList_toList]

/-! ## Chain names -/

/-- A chain name tells its label and what stands behind the underscore. -/
theorem encodeLabel_append_inj {l l' r s : String} (hr : '_' ∉ r.toList) :
    encodeLabel l ++ ("_" ++ r) = encodeLabel l' ++ ("_" ++ s) ↔ l = l' ∧ r = s := by
  constructor
  · intro h
    have hlist := congrArg String.toList h
    simp only [String.toList_append] at hlist
    obtain ⟨hl, -, hs⟩ :=
      (List.append_cons_inj_of_notMem (underscore_notMem_encodeLabel l) hr).mp hlist
    exact ⟨encodeLabel_inj (String.toList_inj.mp hl), String.toList_inj.mp hs⟩
  · rintro ⟨rfl, rfl⟩
    rfl

namespace ChainNames

variable (l l' : String)

@[simp] theorem ingress_inj : (ofLabel l).ingress = (ofLabel l').ingress ↔ l = l' :=
  (encodeLabel_append_inj (r := "ingress") (s := "ingress") (by decide)).trans (by simp)

@[simp] theorem forward_inj : (ofLabel l).forward = (ofLabel l').forward ↔ l = l' :=
  (encodeLabel_append_inj (r := "fwd") (s := "fwd") (by decide)).trans (by simp)

@[simp] theorem egress_inj : (ofLabel l).egress = (ofLabel l').egress ↔ l = l' :=
  (encodeLabel_append_inj (r := "egress") (s := "egress") (by decide)).trans (by simp)

@[simp] theorem ingress_ne_forward : (ofLabel l).ingress ≠ (ofLabel l').forward := fun h =>
  absurd ((encodeLabel_append_inj (r := "ingress") (s := "fwd") (by decide)).mp h).2 (by decide)

@[simp] theorem ingress_ne_egress : (ofLabel l).ingress ≠ (ofLabel l').egress := fun h =>
  absurd ((encodeLabel_append_inj (r := "ingress") (s := "egress") (by decide)).mp h).2 (by decide)

@[simp] theorem forward_ne_egress : (ofLabel l).forward ≠ (ofLabel l').egress := fun h =>
  absurd ((encodeLabel_append_inj (r := "fwd") (s := "egress") (by decide)).mp h).2 (by decide)

/-- A chain belongs to one label. -/
theorem label_unique {l l' c : String} (h : c ∈ (ofLabel l).all) (h' : c ∈ (ofLabel l').all) :
    l = l' := by
  have hforward := (ingress_ne_forward l' l).symm
  have hegress := (ingress_ne_egress l' l).symm
  have hegress' := (forward_ne_egress l' l).symm
  simp only [all, List.mem_cons, List.not_mem_nil, or_false] at h h'
  rcases h with rfl | rfl | rfl <;> simp_all

/-- The name of a chain has as many octets as characters. -/
theorem utf8ByteSize_of_mem {c label : String} (h : c ∈ (ofLabel label).all) :
    c.utf8ByteSize = c.length := by
  have happend : ∀ {r : String}, r.utf8ByteSize = r.length →
      (encodeLabel label ++ r).utf8ByteSize = (encodeLabel label ++ r).length := by
    intro r hr
    rw [String.utf8ByteSize_append, String.length_append, hr,
      utf8ByteSize_of_isAlphanum fun _ => isAlphanum_of_mem_encodeLabel]
  simp only [all, ofLabel, List.mem_cons, List.not_mem_nil, or_false] at h
  rcases h with rfl | rfl | rfl <;> exact happend (by decide)

/-- A chain of a machine has an underscore in its name. -/
theorem underscore_mem {c : String} (h : c ∈ (ofLabel l).all) : '_' ∈ c.toList := by
  simp only [all, ofLabel, List.mem_cons, List.not_mem_nil, or_false] at h
  rcases h with rfl | rfl | rfl <;> simp

/-- The three chains of a label are three different chains. -/
theorem nodup_all (label : String) : (ofLabel label).all.Nodup := by
  simp [all]

/-- Six different chains belong to two labels exactly if the labels are different. -/
theorem nodup_all_append_iff {l l' : String} :
    ((ofLabel l).all ++ (ofLabel l').all).Nodup ↔ l ≠ l' := by
  rw [List.nodup_append]
  constructor
  · rintro ⟨-, -, happart⟩ rfl
    exact happart _ List.mem_cons_self _ List.mem_cons_self rfl
  · intro hne
    refine ⟨nodup_all l, nodup_all l', fun c hc c' hc' heq => hne ?_⟩
    exact label_unique hc (heq ▸ hc')

end ChainNames

/-- The octets of every label are read back from its encoding, so two labels have one encoding only
if they are equal. The encoding has letters and digits of ASCII only, and the three chains each of
two labels are six different chains exactly if the labels are different. -/
theorem chains_of_labels :
    (∀ label, decodeLabel? (encodeLabel label).toList = some label.toUTF8.toList) ∧
    (∀ l l', encodeLabel l = encodeLabel l' ↔ l = l') ∧
    (∀ label, (encodeLabel label).toList.all Char.isAlphanum = true) ∧
    ∀ l l', ((ChainNames.ofLabel l).all ++ (ChainNames.ofLabel l').all).Nodup ↔ l ≠ l' :=
  ⟨decodeLabel?_encodeLabel, fun _ _ => ⟨encodeLabel_inj, congrArg encodeLabel⟩,
    fun _ => List.all_eq_true.mpr fun _ => isAlphanum_of_mem_encodeLabel,
    fun _ _ => ChainNames.nodup_all_append_iff⟩

theorem chains_of_labels_web :
    "web-1" ≠ "webx2d1" ∧
      ((ChainNames.ofLabel "web-1").all ++ (ChainNames.ofLabel "webx2d1").all).Nodup := by
  have hne : "web-1" ≠ "webx2d1" := by decide
  exact ⟨hne, (chains_of_labels.2.2.2 "web-1" "webx2d1").mpr hne⟩

end NetworkCompiler
