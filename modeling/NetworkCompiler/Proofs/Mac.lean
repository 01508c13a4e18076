import Mathlib.Tactic.Common
import NetworkCompiler.Mac
import NetworkCompiler.Proofs.Results
import NetworkCompiler.Proofs.Text.Lines

/-!
# Spelled hardware addresses

A hardware address is read back from its written form (`Mac.ofText?_text`), so no two are written
alike. What else can be read are the other spellings of that form : groups of two digits of either
case, with a colon or a hyphen between any two of them (`Mac.exists_ofText?_iff`). They have the
written form in common (`Mac.text_eq_normalForm`).
-/

namespace NetworkCompiler.Mac

/-- A hexadecimal digit, as the written form has it. -/
def digitOf (n : Nat) : Char :=
  if n < 10 then Char.ofNat (48 + n) else Char.ofNat (87 + n)

theorem hexDigit?_digitOf : ∀ n < 16, hexDigit? (digitOf n) = some (UInt8.ofNat n) ∧
    digitOf n ≠ ':' ∧ digitOf n ≠ '-' ∧ Text.isBlank (digitOf n) = false := by
  decide

/-- The two digits of an octet. -/
def digitsOf (o : UInt8) : List Char :=
  (Digest.hex [o]).toList

theorem digitsOf_eq (o : UInt8) :
    digitsOf o = [digitOf (o.toNat / 16), digitOf (o.toNat % 16)] := by
  simp [digitsOf, Digest.hex, digitOf]

/-- An octet is read back from its digits, which are neither separators nor blanks. -/
theorem octet?_digitsOf (o : UInt8) :
    octet? (digitsOf o) = some o ∧
      ∀ c ∈ digitsOf o, c ≠ ':' ∧ c ≠ '-' ∧ Text.isBlank c = false := by
  have ho := o.toNat_lt
  obtain ⟨hhigh, hhigh'⟩ := hexDigit?_digitOf (o.toNat / 16) (by omega)
  obtain ⟨hlow, hlow'⟩ := hexDigit?_digitOf (o.toNat % 16) (by omega)
  rw [digitsOf_eq]
  constructor
  · have hsum : UInt8.ofNat (o.toNat / 16) * 16 + UInt8.ofNat (o.toNat % 16) = o := by
      rw [← UInt8.toNat_inj]
      simp
      omega
    simp [octet?, hhigh, hlow, hsum]
  · simp only [List.forall_mem_cons]
    exact ⟨hhigh', hlow', nofun⟩

theorem toList_text (m : Mac) :
    m.text.toList = digitsOf m.o1 ++ ':' :: (digitsOf m.o2 ++ ':' :: (digitsOf m.o3 ++
      ':' :: (digitsOf m.o4 ++ ':' :: (digitsOf m.o5 ++ ':' :: digitsOf m.o6)))) := by
  rw [text, Text.joinWith, String.toList_intercalate, List.map_map]
  simp [octets, List.intercalate, digitsOf]

theorem mem_text {m : Mac} {c : Char} (hc : c ∈ m.text.toList) :
    c ≠ '-' ∧ Text.isBlank c = false := by
  have hdigits := fun o hc => ((octet?_digitsOf o).2 c hc).2
  rw [toList_text] at hc
  simp only [List.mem_append, List.mem_cons] at hc
  rcases hc with hc | rfl | hc | rfl | hc | rfl | hc | rfl | hc | rfl | hc
  all_goals first | exact hdigits _ hc | decide

/-- An address is read back from its written form. -/
theorem ofText?_text (m : Mac) : ofText? m.text = some m := by
  have htrim : Text.Chars.trim m.text.toList = m.text.toList :=
    Text.Chars.trim_of_isSolid fun c hc => (mem_text hc).2
  have hsame : m.text.toList.map unifySeparator = m.text.toList :=
    (List.map_congr_left fun c hc => if_neg (mem_text hc).1).trans (List.map_id _)
  have hcolon : ∀ o, ':' ∉ digitsOf o := fun o hmem => ((octet?_digitsOf o).2 _ hmem).1 rfl
  have hpieces : Text.Chars.splitAt ':' m.text.toList =
      [digitsOf m.o1, digitsOf m.o2, digitsOf m.o3, digitsOf m.o4, digitsOf m.o5,
        digitsOf m.o6] := by
    rw [toList_text]
    simp only [Text.Chars.splitAt_append_cons (hcolon _),
      Text.Chars.splitAt_of_not_mem (hcolon _)]
  rw [ofText?, htrim, hsame, hpieces]
  simp only [(octet?_digitsOf _).1, Option.bind_eq_bind, Option.bind_some]
  rfl

theorem text_inj {m m' : Mac} (h : m.text = m'.text) : m = m' := by
  have hread := ofText?_text m
  rw [h, ofText?_text] at hread
  exact (Option.some.inj hread).symm

theorem isSolid_text (m : Mac) : Text.Chars.IsSolid m.text.toList :=
  fun _ hc => (mem_text hc).2

/-! ## Digits of either case -/

/-- A hexadecimal digit of either case. -/
def isHexDigit (c : Char) : Bool :=
  c.isDigit || ('a' ≤ c && c ≤ 'f') || ('A' ≤ c && c ≤ 'F')

theorem isSome_hexDigit? (c : Char) : (hexDigit? c).isSome = isHexDigit c := by
  unfold hexDigit? isHexDigit
  dsimp only
  change _ = (('0' ≤ c && c ≤ '9') || ('a' ≤ c && c ≤ 'f') || ('A' ≤ c && c ≤ 'F'))
  split_ifs <;> simp_all

theorem mem_of_isHexDigit {c : Char} (h : isHexDigit c = true) :
    c ∈ "0123456789abcdefABCDEF".toList := by
  have hlt : c.toNat < 128 := by
    have hval : c.val.toNat = c.toNat := rfl
    simp [isHexDigit, Char.isDigit, Char.le_def, UInt32.le_iff_toNat_le] at h
    omega
  have hall : ∀ n < 128, isHexDigit (Char.ofNat n) = true →
      Char.ofNat n ∈ "0123456789abcdefABCDEF".toList := by
    decide
  rw [← Char.ofNat_toNat c] at h ⊢
  exact hall _ hlt h

/-- What holds for each of the digits in a list of them holds for every digit. -/
theorem of_isHexDigit {P : Char → Prop}
    (hall : List.Forall P "0123456789abcdefABCDEF".toList) {c : Char} (h : isHexDigit c = true) :
    P c :=
  List.forall_iff_forall_mem.mp hall c (mem_of_isHexDigit h)

/-- A digit of either case is written as the small digit of its value. -/
theorem digitOf_of_hexDigit? {c : Char} {v : UInt8} (h : hexDigit? c = some v) :
    v.toNat < 16 ∧ digitOf v.toNat = c.toLower ∧ c ≠ ':' ∧ c ≠ '-' := by
  have hdigit : isHexDigit c = true := by
    rw [← isSome_hexDigit?, h]
    rfl
  have hvalue := of_isHexDigit (P := fun c => ((hexDigit? c).getD 0).toNat < 16 ∧
    digitOf ((hexDigit? c).getD 0).toNat = c.toLower ∧ c ≠ ':' ∧ c ≠ '-') (by decide) hdigit
  rwa [h, Option.getD_some] at hvalue

/-! ## Spellings -/

/-- Texts of `n` groups of two hexadecimal digits each, with a colon or a hyphen between any two
groups. -/
inductive IsSpelled : Nat → List Char → Prop where
  | single {a b : Char} (ha : isHexDigit a = true) (hb : isHexDigit b = true) :
      IsSpelled 1 [a, b]
  | more {a b sep : Char} {n : Nat} {cs : List Char} (ha : isHexDigit a = true)
      (hb : isHexDigit b = true) (hsep : sep = ':' ∨ sep = '-') (hcs : IsSpelled n cs) :
      IsSpelled (n + 1) (a :: b :: sep :: cs)

/-- The text that all spellings of an address have in common : small letters, colons, no blanks
around it. -/
def normalForm (s : String) : String :=
  String.ofList ((Text.Chars.trim s.toList).map fun c => unifySeparator c.toLower)

/-- The octets of a text of groups. -/
def groups? (cs : List Char) : Option (List UInt8) :=
  (Text.Chars.splitAt ':' (cs.map unifySeparator)).mapM octet?

/-- An octet is read from two digits of either case, which are written in small letters. -/
theorem octet?_eq_some {cs : List Char} {o : UInt8} (h : octet? cs = some o) :
    ∃ a b, cs = [a, b] ∧ isHexDigit a = true ∧ isHexDigit b = true ∧
      digitsOf o = [a.toLower, b.toLower] ∧ ':' ∉ cs ∧ '-' ∉ cs := by
  match cs, h with
  | [a, b], h =>
    obtain ⟨v, hv, h⟩ := Option.bind_eq_some_iff.mp h
    obtain ⟨w, hw, h⟩ := Option.bind_eq_some_iff.mp h
    obtain ⟨hv16, hva, hac, hah⟩ := digitOf_of_hexDigit? hv
    obtain ⟨hw16, hwb, hbc, hbh⟩ := digitOf_of_hexDigit? hw
    have ho : o.toNat = v.toNat * 16 + w.toNat := by
      rw [← Option.some.inj h, UInt8.toNat_add, UInt8.toNat_mul]
      simp
      omega
    refine ⟨a, b, rfl, ?_, ?_, ?_, ?_, ?_⟩
    · rw [← isSome_hexDigit?, hv]
      rfl
    · rw [← isSome_hexDigit?, hw]
      rfl
    · rw [digitsOf_eq, ho, show (v.toNat * 16 + w.toNat) / 16 = v.toNat by omega,
        show (v.toNat * 16 + w.toNat) % 16 = w.toNat by omega, hva, hwb]
    · simp [Ne.symm hac, Ne.symm hbc]
    · simp [Ne.symm hah, Ne.symm hbh]

theorem exists_octet? {a b : Char} (ha : isHexDigit a = true) (hb : isHexDigit b = true) :
    ∃ o, octet? [a, b] = some o := by
  rw [← isSome_hexDigit?, Option.isSome_iff_exists] at ha hb
  obtain ⟨v, hv⟩ := ha
  obtain ⟨w, hw⟩ := hb
  exact ⟨v * 16 + w, by simp [octet?, hv, hw]⟩

theorem unifySeparator_toLower {c : Char} (h : isHexDigit c = true) :
    unifySeparator c.toLower = c.toLower :=
  of_isHexDigit (P := fun c => unifySeparator c.toLower = c.toLower) (by decide) h

theorem unifySeparator_of_isHexDigit {c : Char} (h : isHexDigit c = true) :
    unifySeparator c = c ∧ c ≠ ':' :=
  of_isHexDigit (P := fun c => unifySeparator c = c ∧ c ≠ ':') (by decide) h

/-- The first group of a text, and the groups behind it. -/
theorem groups?_cons {a b sep : Char} {cs : List Char} (ha : isHexDigit a = true)
    (hb : isHexDigit b = true) (hsep : sep = ':' ∨ sep = '-') :
    groups? (a :: b :: sep :: cs) = (octet? [a, b]).bind fun o => (groups? cs).map (o :: ·) := by
  obtain ⟨hua, hac⟩ := unifySeparator_of_isHexDigit ha
  obtain ⟨hub, hbc⟩ := unifySeparator_of_isHexDigit hb
  have husep : unifySeparator sep = ':' := by
    rcases hsep with rfl | rfl <;> rfl
  have hcolon : ':' ∉ [a, b] := by simp [Ne.symm hac, Ne.symm hbc]
  have hsplit := Text.Chars.splitAt_append_cons hcolon (cs.map unifySeparator)
  unfold groups?
  rw [List.map_cons, List.map_cons, List.map_cons, hua, hub, husep]
  rw [List.cons_append, List.cons_append, List.nil_append] at hsplit
  rw [hsplit, List.mapM_cons]
  cases octet? [a, b] with
  | none => rfl
  | some o =>
    cases (Text.Chars.splitAt ':' (cs.map unifySeparator)).mapM octet? <;> rfl

theorem groups?_pair {a b : Char} (ha : isHexDigit a = true) (hb : isHexDigit b = true) :
    groups? [a, b] = (octet? [a, b]).map fun o => [o] := by
  obtain ⟨hua, hac⟩ := unifySeparator_of_isHexDigit ha
  obtain ⟨hub, hbc⟩ := unifySeparator_of_isHexDigit hb
  have hcolon : ':' ∉ [a, b] := by simp [Ne.symm hac, Ne.symm hbc]
  unfold groups?
  rw [List.map_cons, List.map_singleton, hua, hub, Text.Chars.splitAt_of_not_mem hcolon,
    List.mapM_cons]
  cases octet? [a, b] <;> rfl

theorem unifySeparator_eq_colon {c : Char} (h : unifySeparator c = ':') : c = ':' ∨ c = '-' := by
  unfold unifySeparator at h
  split at h
  · exact .inr ‹_›
  · exact .inl h

theorem eq_of_unifySeparator_ne {c d : Char} (h : unifySeparator c = d) (hd : d ≠ ':') : c = d := by
  unfold unifySeparator at h
  split at h
  · exact absurd h.symm hd
  · exact h

/-- A text that can be read begins with two digits, behind which it ends or a separator stands. -/
theorem exists_of_groups? {cs : List Char} {os : List UInt8} (h : groups? cs = some os) :
    ∃ a b, isHexDigit a = true ∧ isHexDigit b = true ∧ (cs = [a, b] ∨
      ∃ sep cs', (sep = ':' ∨ sep = '-') ∧ cs = a :: b :: sep :: cs') := by
  have hjoin := Text.Chars.intercalate_splitAt ':' (cs.map unifySeparator)
  obtain ⟨p, ps, hpieces⟩ := List.exists_cons_of_ne_nil
    (Text.Chars.splitAt_ne_nil ':' (cs.map unifySeparator))
  rw [groups?, hpieces, List.mapM_cons] at h
  obtain ⟨o, ho, -⟩ := Option.bind_eq_some_iff.mp h
  obtain ⟨a, b, rfl, ha, hb, -⟩ := octet?_eq_some ho
  obtain ⟨-, hac⟩ := unifySeparator_of_isHexDigit ha
  obtain ⟨-, hbc⟩ := unifySeparator_of_isHexDigit hb
  refine ⟨a, b, ha, hb, ?_⟩
  rw [hpieces] at hjoin
  cases ps with
  | nil =>
    have hcs : cs.map unifySeparator = [a, b] := by simpa using hjoin.symm
    obtain ⟨x, xs, rfl, hx, hxs⟩ := List.map_eq_cons_iff.mp hcs
    obtain ⟨y, ys, rfl, hy, hys⟩ := List.map_eq_cons_iff.mp hxs
    obtain rfl := List.map_eq_nil_iff.mp hys
    rw [eq_of_unifySeparator_ne hx hac, eq_of_unifySeparator_ne hy hbc]
    exact .inl rfl
  | cons q qs =>
    have hcs : cs.map unifySeparator = a :: b :: ':' :: [':'].intercalate (q :: qs) := by
      simpa using hjoin.symm
    obtain ⟨x, xs, rfl, hx, hxs⟩ := List.map_eq_cons_iff.mp hcs
    obtain ⟨y, ys, rfl, hy, hys⟩ := List.map_eq_cons_iff.mp hxs
    obtain ⟨sep, cs', rfl, hsep, -⟩ := List.map_eq_cons_iff.mp hys
    rw [eq_of_unifySeparator_ne hx hac, eq_of_unifySeparator_ne hy hbc]
    exact .inr ⟨sep, cs', unifySeparator_eq_colon hsep, rfl⟩

/-- What can be read is spelled, and written it has small letters and colons. -/
theorem isSpelled_of_groups? {cs : List Char} {os : List UInt8} (h : groups? cs = some os) :
    IsSpelled os.length cs ∧
      cs.map (fun c => unifySeparator c.toLower) = [':'].intercalate (os.map digitsOf) := by
  induction os generalizing cs with
  | nil =>
    obtain ⟨a, b, ha, hb, rfl | ⟨sep, cs', hsep, rfl⟩⟩ := exists_of_groups? h
    · rw [groups?_pair ha hb] at h
      obtain ⟨o, -, ho⟩ := Option.map_eq_some_iff.mp h
      cases ho
    · rw [groups?_cons ha hb hsep] at h
      obtain ⟨o, -, h⟩ := Option.bind_eq_some_iff.mp h
      obtain ⟨os, -, hos⟩ := Option.map_eq_some_iff.mp h
      cases hos
  | cons o os ih =>
    obtain ⟨a, b, ha, hb, hshape⟩ := exists_of_groups? h
    have hsmall : ∀ {o}, octet? [a, b] = some o →
        [unifySeparator a.toLower, unifySeparator b.toLower] = digitsOf o := by
      intro o ho
      obtain ⟨x, y, hxy, -, -, hdigits, -⟩ := octet?_eq_some ho
      cases hxy
      rw [unifySeparator_toLower ha, unifySeparator_toLower hb, hdigits]
    obtain rfl | ⟨sep, cs', hsep, rfl⟩ := hshape
    · rw [groups?_pair ha hb] at h
      obtain ⟨o', ho, hos⟩ := Option.map_eq_some_iff.mp h
      cases hos
      refine ⟨.single ha hb, ?_⟩
      rw [List.map_cons, List.map_singleton, hsmall ho]
      simp
    · rw [groups?_cons ha hb hsep] at h
      obtain ⟨o', ho, h⟩ := Option.bind_eq_some_iff.mp h
      obtain ⟨os', hos', hos⟩ := Option.map_eq_some_iff.mp h
      cases hos
      obtain ⟨hspelled, hwritten⟩ := ih hos'
      have hcolon : unifySeparator sep.toLower = ':' := by
        rcases hsep with rfl | rfl <;> rfl
      refine ⟨.more ha hb hsep hspelled, ?_⟩
      cases os with
      | nil => exact nomatch hspelled
      | cons o' os =>
        rw [List.map_cons, List.map_cons, List.map_cons, hcolon, hwritten, List.map_cons,
          List.map_cons, List.map_cons, List.intercalate_cons_cons, ← hsmall ho]
        rfl

theorem exists_groups? {n : Nat} {cs : List Char} (h : IsSpelled n cs) :
    ∃ os, groups? cs = some os ∧ os.length = n := by
  induction h with
  | single ha hb =>
    obtain ⟨o, ho⟩ := exists_octet? ha hb
    exact ⟨[o], by rw [groups?_pair ha hb, ho]; rfl, rfl⟩
  | more ha hb hsep hcs ih =>
    obtain ⟨o, ho⟩ := exists_octet? ha hb
    obtain ⟨os, hos, hlength⟩ := ih
    exact ⟨o :: os, by rw [groups?_cons ha hb hsep, ho, hos]; rfl, congrArg (· + 1) hlength⟩

/-! ## Addresses -/

theorem ofText?_eq_some_iff {s : String} {m : Mac} :
    ofText? s = some m ↔ groups? (Text.Chars.trim s.toList) = some m.octets := by
  unfold ofText? groups?
  rw [mapM_eq_some]
  constructor
  · intro h
    split at h
    · next a b c d e f hpieces =>
      rw [hpieces]
      obtain ⟨o1, h1, h⟩ := Option.bind_eq_some_iff.mp h
      obtain ⟨o2, h2, h⟩ := Option.bind_eq_some_iff.mp h
      obtain ⟨o3, h3, h⟩ := Option.bind_eq_some_iff.mp h
      obtain ⟨o4, h4, h⟩ := Option.bind_eq_some_iff.mp h
      obtain ⟨o5, h5, h⟩ := Option.bind_eq_some_iff.mp h
      obtain ⟨o6, h6, h⟩ := Option.bind_eq_some_iff.mp h
      cases h
      exact .cons h1 (.cons h2 (.cons h3 (.cons h4 (.cons h5 (.cons h6 .nil)))))
    · cases h
  · generalize Text.Chars.splitAt ':' _ = pieces
    rintro (_ | ⟨h1, _ | ⟨h2, _ | ⟨h3, _ | ⟨h4, _ | ⟨h5, _ | ⟨h6, _ | _⟩⟩⟩⟩⟩⟩)
    simp [h1, h2, h3, h4, h5, h6]

theorem toList_text_eq (m : Mac) : m.text.toList = [':'].intercalate (m.octets.map digitsOf) := by
  rw [toList_text]
  simp [octets, List.intercalate]

/-- An address can be read exactly if it is spelled. -/
theorem exists_ofText?_iff {s : String} :
    (∃ m, ofText? s = some m) ↔ IsSpelled 6 (Text.Chars.trim s.toList) := by
  constructor
  · rintro ⟨m, hm⟩
    exact (isSpelled_of_groups? (ofText?_eq_some_iff.mp hm)).1
  · intro h
    obtain ⟨os, hos, hlength⟩ := exists_groups? h
    match os, hlength with
    | [a, b, c, d, e, f], _ => exact ⟨⟨a, b, c, d, e, f⟩, ofText?_eq_some_iff.mpr hos⟩

/-- The written form of an address is the normal form of all of its spellings. -/
theorem text_eq_normalForm {s : String} {m : Mac} (h : ofText? s = some m) :
    m.text = normalForm s := by
  have hwritten := (isSpelled_of_groups? (ofText?_eq_some_iff.mp h)).2
  rw [normalForm, hwritten, ← toList_text_eq, String.ofList_toList]

end NetworkCompiler.Mac
