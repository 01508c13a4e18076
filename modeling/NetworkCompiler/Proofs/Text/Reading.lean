import Mathlib.Data.List.Basic
import Mathlib.Tactic.Common
import NetworkCompiler.Text.Numeral
import NetworkCompiler.Text.Split

/-!
# Reading from texts

What the functions that take a text apart say about it : `after?` and `before?` find exactly the
rest of a text that begins or ends in a certain way, `takeWhile_append_cons` takes characters up to
the first of another kind, words with spaces between them are found again
(`words_append_flatMap`), and a number that was written in digits is read back
(`natural?_toString`).

A text is written in the octets of its characters one after the other (`toList_toUTF8`), and they
determine it (`toUTF8_toList_inj`).
-/

namespace NetworkCompiler.Text.Chars

theorem after?_eq_some {start cs rest : List Char} :
    after? start cs = some rest ↔ cs = start ++ rest := by
  induction start generalizing cs with
  | nil => simp [after?]
  | cons s start ih =>
    cases cs with
    | nil => simp [after?]
    | cons c cs =>
      rw [after?]
      split
      · next h => simp [h, ih]
      · next h => simp [Ne.symm h]

theorem after?_append (start rest : List Char) : after? start (start ++ rest) = some rest :=
  after?_eq_some.mpr rfl

theorem before?_eq_some {ending cs rest : List Char} :
    before? ending cs = some rest ↔ cs = rest ++ ending := by
  rw [before?, Option.map_eq_some_iff]
  constructor
  · rintro ⟨r, h, rfl⟩
    rw [after?_eq_some] at h
    rw [← List.reverse_reverse cs, h, List.reverse_append, List.reverse_reverse]
  · rintro rfl
    exact ⟨rest.reverse, by rw [List.reverse_append, after?_append], List.reverse_reverse _⟩

theorem before?_append (rest ending : List Char) : before? ending (rest ++ ending) = some rest :=
  before?_eq_some.mpr rfl

theorem takeWhile_append_cons {p : Char → Bool} {cs : List Char} {c : Char}
    (hcs : ∀ d ∈ cs, p d = true) (hc : p c = false) (rest : List Char) :
    (cs ++ c :: rest).takeWhile p = cs ∧ (cs ++ c :: rest).dropWhile p = c :: rest := by
  rw [List.takeWhile_append_of_pos hcs, List.dropWhile_append_of_pos hcs,
    List.takeWhile_cons_of_neg (by simp [hc]), List.dropWhile_cons_of_neg (by simp [hc]),
    List.append_nil]
  exact ⟨rfl, rfl⟩

theorem cutAt?_append_cons {sep : Char} {cs : List Char} (h : sep ∉ cs) (rest : List Char) :
    cutAt? sep (cs ++ sep :: rest) = some (cs, rest) := by
  induction cs with
  | nil => simp [cutAt?]
  | cons c cs ih =>
    rw [List.mem_cons, not_or] at h
    rw [List.cons_append, cutAt?, if_neg (Ne.symm h.1), ih h.2, Option.map_some]

theorem cutAt?_eq_some {sep : Char} {cs before behind : List Char} :
    cutAt? sep cs = some (before, behind) ↔ cs = before ++ sep :: behind ∧ sep ∉ before := by
  refine ⟨fun h => ?_, fun ⟨hcs, hsep⟩ => hcs ▸ cutAt?_append_cons hsep behind⟩
  induction cs generalizing before with
  | nil => cases h
  | cons c cs ih =>
    rw [cutAt?] at h
    split_ifs at h with hc
    · cases h
      exact ⟨by rw [hc]; rfl, List.not_mem_nil⟩
    · obtain ⟨⟨l, r⟩, hcut, hpair⟩ := Option.map_eq_some_iff.mp h
      obtain ⟨rfl, rfl⟩ := Prod.mk.inj hpair
      obtain ⟨rfl, hsep⟩ := ih hcut
      refine ⟨rfl, ?_⟩
      rw [List.mem_cons, not_or]
      exact ⟨Ne.symm hc, hsep⟩

/-! ## Words -/

/-- A text without blanks. -/
def IsSolid (cs : List Char) : Prop :=
  ∀ c ∈ cs, isBlank c = false

instance (cs : List Char) : Decidable (IsSolid cs) :=
  List.decidableBAll (isBlank · = false) cs

theorem trimStart_cons {c : Char} (h : isBlank c = false) (cs : List Char) :
    trimStart (c :: cs) = c :: cs := by
  rw [trimStart, List.dropWhile_cons_of_neg (by simp [h])]

theorem trimStart_of_isSolid {cs : List Char} (h : IsSolid cs) : trimStart cs = cs := by
  cases cs with
  | nil => rfl
  | cons c cs => exact trimStart_cons (h c List.mem_cons_self) cs

theorem trim_of_isSolid {cs : List Char} (h : IsSolid cs) : trim cs = cs := by
  have hreverse : cs.reverse.dropWhile isBlank = cs.reverse :=
    trimStart_of_isSolid fun c hc => h c (List.mem_reverse.mp hc)
  rw [trim, trimStart_of_isSolid h, trimEnd, hreverse, List.reverse_reverse]

theorem wordsAux_append {cs : List Char} (h : IsSolid cs) (rest : List Char) :
    wordsAux (cs ++ rest) = (cs ++ (wordsAux rest).1, (wordsAux rest).2) := by
  induction cs with
  | nil => rfl
  | cons c cs ih =>
    obtain ⟨hc, hcs⟩ := List.forall_mem_cons.mp h
    rw [List.cons_append, wordsAux, ih hcs]
    simp [hc]

theorem wordsAux_flatMap {ws : List (List Char)} (h : ∀ w ∈ ws, w ≠ [] ∧ IsSolid w) :
    wordsAux (ws.flatMap (' ' :: ·)) = ([], ws) := by
  induction ws with
  | nil => rfl
  | cons w ws ih =>
    obtain ⟨⟨hne, hw⟩, hws⟩ := List.forall_mem_cons.mp h
    have hspace : isBlank ' ' = true := by decide
    rw [List.flatMap_cons, List.cons_append, wordsAux, wordsAux_append hw, ih hws]
    simp [hspace, hne]

theorem isSolid_wordsAux (cs : List Char) :
    IsSolid (wordsAux cs).1 ∧ ∀ w ∈ (wordsAux cs).2, w ≠ [] ∧ IsSolid w := by
  induction cs with
  | nil => simp [wordsAux, IsSolid]
  | cons c cs ih =>
    rw [wordsAux]
    cases hpair : wordsAux cs with
    | mk word rest =>
      rw [hpair] at ih
      obtain ⟨hword, hrest⟩ := ih
      dsimp only
      split_ifs with hc hempty
      · exact ⟨List.forall_mem_nil _, hrest⟩
      · have hne : word ≠ [] := by simpa using hempty
        exact ⟨List.forall_mem_nil _, List.forall_mem_cons.mpr ⟨⟨hne, hword⟩, hrest⟩⟩
      · have hsolid : isBlank c = false := by simpa using hc
        exact ⟨List.forall_mem_cons.mpr ⟨hsolid, hword⟩, hrest⟩

/-- Words are not empty and hold no blanks. -/
theorem isSolid_of_mem_words {cs w : List Char} (h : w ∈ words cs) : w ≠ [] ∧ IsSolid w := by
  have hsolid := isSolid_wordsAux cs
  rw [words] at h
  cases hpair : wordsAux cs with
  | mk word rest =>
    rw [hpair] at h hsolid
    obtain ⟨hword, hrest⟩ := hsolid
    dsimp only at h
    split_ifs at h with hempty
    · exact hrest w h
    · rcases List.mem_cons.mp h with rfl | h
      · exact ⟨by simpa using hempty, hword⟩
      · exact hrest w h

/-- Words with a space in front of each but the first are found again. -/
theorem words_append_flatMap {w : List Char} {ws : List (List Char)}
    (h : ∀ v ∈ w :: ws, v ≠ [] ∧ IsSolid v) :
    words (w ++ ws.flatMap (' ' :: ·)) = w :: ws := by
  obtain ⟨⟨hne, hw⟩, hws⟩ := List.forall_mem_cons.mp h
  rw [words, wordsAux_append hw, wordsAux_flatMap hws]
  simp [hne]

/-! ## Numbers -/

theorem digit?_of_isDigit {c : Char} (h : c.isDigit = true) :
    digit? c = some (c.toNat - '0'.toNat) := by
  have hbounds : '0' ≤ c ∧ c ≤ '9' := by
    simpa [Char.isDigit, Char.le_def] using h
  rw [digit?, if_pos (by simpa using hbounds)]
  rfl

theorem naturalFrom?_of_isDigit {cs : List Char} (h : ∀ c ∈ cs, c.isDigit = true) (n : Nat) :
    naturalFrom? n cs = some (Nat.ofDigitChars 10 cs n) := by
  induction cs generalizing n with
  | nil => simp [naturalFrom?]
  | cons c cs ih =>
    obtain ⟨hc, hcs⟩ := List.forall_mem_cons.mp h
    rw [naturalFrom?, digit?_of_isDigit hc, Option.bind_some, ih hcs, Nat.ofDigitChars_cons,
      Nat.mul_comm]

theorem toList_toString (n : Nat) : (toString n).toList = Nat.toDigits 10 n := by
  rw [Nat.toString_eq_ofList_toDigits, String.toList_ofList]

theorem isDigit_of_mem_toString {n : Nat} {c : Char} (hc : c ∈ (toString n).toList) :
    c.isDigit = true := by
  rw [toList_toString] at hc
  exact Nat.isDigit_of_mem_toDigits (by decide) (by decide) hc

/-- A number is read back from its digits. -/
theorem natural?_toString (n : Nat) : natural? (toString n).toList = some n := by
  have hnatural : ∀ cs : List Char, cs ≠ [] → natural? cs = naturalFrom? 0 cs := fun cs hcs => by
    cases cs with
    | nil => exact absurd rfl hcs
    | cons c cs => rfl
  rw [hnatural _ (toList_toString n ▸ Nat.toDigits_ne_nil),
    naturalFrom?_of_isDigit fun c hc => isDigit_of_mem_toString hc, toList_toString,
    Nat.ofDigitChars_toDigits (by decide) (by decide)]

/-- The digits of a number determine it. -/
theorem toString_inj {m n : Nat} : toString m = toString n ↔ m = n := by
  refine ⟨fun h => ?_, fun h => h ▸ rfl⟩
  have hread := natural?_toString m
  rw [h, natural?_toString] at hread
  exact (Option.some.inj hread).symm

theorem unsigned?_toString (n : Nat) : unsigned? (toString n).toList = some n := by
  unfold unsigned?
  split
  · next hplus => exact absurd (isDigit_of_mem_toString (hplus ▸ List.mem_cons_self)) (by decide)
  · exact natural?_toString n

end NetworkCompiler.Text.Chars

namespace NetworkCompiler

/-- A number that is not too large is read back. -/
theorem Text.unsigned?_toString {n max : Nat} (h : n ≤ max) :
    Text.unsigned? max (toString n) = some n := by
  rw [Text.unsigned?, Chars.unsigned?_toString, Option.filter_some, if_pos (by simpa using h)]

theorem toList_loop (bs : ByteArray) (i : Nat) (r : List UInt8) :
    ByteArray.toList.loop bs i r = r.reverse ++ bs.data.toList.drop i := by
  fun_induction ByteArray.toList.loop bs i r with
  | case1 i r hlt ih =>
    have hlen : i < bs.data.toList.length := by
      rw [Array.length_toList, ByteArray.size_data]
      exact hlt
    have hget : bs.get! i = bs.data.toList[i] := by
      rw [Array.getElem_toList]
      exact getElem!_pos bs.data i hlen
    rw [ih, List.reverse_cons, List.append_assoc, List.drop_eq_getElem_cons hlen, hget]
    rfl
  | case2 i r hge =>
    have hlen : bs.data.toList.length ≤ i := by
      rw [Array.length_toList, ByteArray.size_data]
      exact Nat.le_of_not_lt hge
    rw [List.drop_eq_nil_of_le hlen, List.append_nil]

theorem toList_eq_data (bs : ByteArray) : bs.toList = bs.data.toList := by
  rw [ByteArray.toList, toList_loop, List.reverse_nil, List.nil_append, List.drop_zero]

/-- The octets of a text determine it. -/
theorem toUTF8_toList_inj {s t : String} (h : s.toUTF8.toList = t.toUTF8.toList) : s = t := by
  rw [toList_eq_data, toList_eq_data, Array.toList_inj] at h
  exact String.toByteArray_inj.mp (ByteArray.ext h)

theorem toList_toUTF8 (s : String) :
    s.toUTF8.toList = s.toList.flatMap String.utf8EncodeChar := by
  rw [toList_eq_data, String.toUTF8_eq_toByteArray, ← String.utf8Encode_toList, List.utf8Encode,
    List.data_toByteArray]

/-! ## Octets of a character -/

theorem toNat_ofNat_octet (b : UInt8) : (Char.ofNat b.toNat).toNat = b.toNat := by
  have hvalid : b.toNat.isValidChar := Or.inl (by have := b.toNat_lt; omega)
  rw [Char.ofNat, dif_pos hvalid]
  rfl

theorem utf8EncodeChar_of_lt {c : Char} (h : c.toNat < 128) :
    String.utf8EncodeChar c = [UInt8.ofNat c.toNat] := by
  have hval : c.val.toNat ≤ 127 := Nat.le_of_lt_succ h
  rw [String.utf8EncodeChar, if_pos hval]
  rfl

/-- The octets of a character that is not in ASCII are not in ASCII. -/
theorem le_toNat_of_mem_utf8EncodeChar {c : Char} (h : 128 ≤ c.toNat) {b : UInt8}
    (hb : b ∈ String.utf8EncodeChar c) : 128 ≤ b.toNat := by
  have hval : ¬ c.val.toNat ≤ 127 := Nat.not_le_of_lt h
  rw [String.utf8EncodeChar, if_neg hval] at hb
  have hofNat : ∀ n : Nat, 128 ≤ n → n < 256 → 128 ≤ (UInt8.ofNat n).toNat := by
    intro n hle hlt
    rw [UInt8.toNat_ofNat', Nat.mod_eq_of_lt hlt]
    exact hle
  split at hb
  · simp only [List.mem_cons, List.not_mem_nil, or_false] at hb
    rcases hb with rfl | rfl <;> exact hofNat _ (by omega) (by omega)
  · split at hb
    · simp only [List.mem_cons, List.not_mem_nil, or_false] at hb
      rcases hb with rfl | rfl | rfl <;> exact hofNat _ (by omega) (by omega)
    · simp only [List.mem_cons, List.not_mem_nil, or_false] at hb
      rcases hb with rfl | rfl | rfl | rfl <;> exact hofNat _ (by omega) (by omega)

end NetworkCompiler
