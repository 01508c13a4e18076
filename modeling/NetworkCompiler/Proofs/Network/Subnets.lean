import NetworkCompiler.Network.InterfaceEntries
import NetworkCompiler.Proofs.Ipv4.Addresses

/-!
# Notations of subnets

The subnet of an interface is written with an address and a prefix length, with the length alone, or
with the dotted mask. `readSubnet?_notations` says that the three lead to one block, and that of all
dotted texts exactly the masks are taken for one.
-/

namespace NetworkCompiler

open Ipv4 (Address Block)

/-! ## Pieces -/

theorem naturalFrom?_of_dot {cs : List Char} (h : '.' ∈ cs) (n : Nat) :
    Text.Chars.naturalFrom? n cs = none := by
  induction cs generalizing n with
  | nil => cases h
  | cons c cs ih =>
    rw [Text.Chars.naturalFrom?]
    rcases List.mem_cons.mp h with rfl | h
    · rfl
    · cases Text.Chars.digit? c with
      | none => rfl
      | some d => exact ih h _

theorem natural?_of_dot {cs : List Char} (h : '.' ∈ cs) : Text.Chars.natural? cs = none := by
  cases cs with
  | nil => cases h
  | cons c cs => exact naturalFrom?_of_dot h 0

/-- A dotted text is no number. -/
theorem unsigned?_text (m : Address) : Text.unsigned? 255 m.text = none := by
  have hdot : '.' ∈ m.text.toList := by
    rw [Address.toList_text]
    simp
  have hchars : Text.Chars.unsigned? m.text.toList = none := by
    unfold Text.Chars.unsigned?
    split
    · next hplus =>
      rw [hplus] at hdot
      exact natural?_of_dot (by simpa using hdot)
    · exact natural?_of_dot hdot
  rw [Text.unsigned?, hchars]
  rfl

theorem slash_notMem_toString (n : Nat) : '/' ∉ (toString n).toList := fun hmem =>
  absurd (Text.Chars.isDigit_of_mem_toString hmem) (by decide)

theorem slash_notMem_text (a : Address) : '/' ∉ a.text.toList := fun hmem => by
  rcases Address.isDigit_of_mem_text hmem with h | h
  · exact absurd h (by decide)
  · exact absurd h (by decide)

/-- A text without blanks is read as it is. -/
theorem readSubnet?_of_isSolid {raw : String} (h : Text.Chars.IsSolid raw.toList) (label : String)
    (a : Address) : readSubnet? label (some raw) a =
      match subnetOf? raw a with
      | some b => .ok (some b)
      | none => .error (.invalidIp label "subnet" raw) := by
  have htrim : Text.trim raw = raw := by
    rw [Text.trim, Text.Chars.trim_of_isSolid h, String.ofList_toList]
  cases hsubnet : subnetOf? raw a <;> simp only [readSubnet?, Option.map_some, htrim, hsubnet]

/-! ## Notations -/

section Notations

variable {length : Nat}

theorem toList_written (a : Address) (length : Nat) :
    s!"{a}/{length}".toList = a.text.toList ++ '/' :: (toString length).toList := by
  simp [ToString.toString]

theorem isSolid_written (a : Address) (length : Nat) :
    Text.Chars.IsSolid s!"{a}/{length}".toList := by
  rw [toList_written]
  refine List.forall_mem_append.mpr ⟨a.isSolid_text, List.forall_mem_cons.mpr ⟨by decide, ?_⟩⟩
  exact (Text.isWord_toString length).2

theorem subnetOf?_written (h : length ≤ 32) (a b : Address) :
    subnetOf? s!"{a}/{length}" b = some (Block.ofAddress a length h) := by
  have hslash : '/' ∈ s!"{a}/{length}".toList := by
    rw [toList_written]
    exact List.mem_append_right _ List.mem_cons_self
  have hcut : Text.cutAt? '/' s!"{a}/{length}" = some (a.text, toString length) := by
    rw [Text.cutAt?, toList_written, Text.Chars.cutAt?_append_cons (slash_notMem_text a)]
    simp only [Option.map_some, String.ofList_toList]
  rw [subnetOf?, if_pos (List.contains_iff_mem.mpr hslash), Block.ofText?, Text.trim,
    Text.Chars.trim_of_isSolid (isSolid_written a length), String.ofList_toList, hcut]
  simp only [Option.bind_eq_bind, Option.bind_some, Address.ofText?_text,
    Text.unsigned?_toString (show length ≤ 255 by omega)]
  exact dif_pos h

theorem subnetOf?_length (h : length ≤ 32) (a : Address) :
    subnetOf? (toString length) a = some (Block.ofAddress a length h) := by
  rw [subnetOf?, if_neg (by simpa using slash_notMem_toString length),
    Text.unsigned?_toString (Nat.le_trans h (by decide))]
  exact dif_pos h

theorem subnetOf?_text (m a : Address) :
    subnetOf? m.text a = (Block.lengthOfMask? m).bind (Block.ofAddress? a) := by
  rw [subnetOf?, if_neg (by simpa using slash_notMem_text m), unsigned?_text]
  simp only [Address.ofText?_text, Option.bind_eq_bind, Option.bind_some]

theorem subnetOf?_text_eq_some {m a : Address} {b : Block} :
    subnetOf? m.text a = some b ↔
      ∃ length, ∃ h : length ≤ 32, m = Block.maskOf length ∧ b = Block.ofAddress a length h := by
  rw [subnetOf?_text, Option.bind_eq_some_iff]
  constructor
  · rintro ⟨length, hlength, hb⟩
    obtain ⟨h, hm⟩ := Block.lengthOfMask?_eq_some.mp hlength
    rw [Block.ofAddress?, dif_pos h, Option.some.injEq] at hb
    exact ⟨length, h, hm, hb.symm⟩
  · rintro ⟨length, h, hm, rfl⟩
    exact ⟨length, Block.lengthOfMask?_eq_some.mpr ⟨h, hm⟩, dif_pos h⟩

theorem subnetOf?_text_eq_none {m a : Address} : subnetOf? m.text a = none ↔ ¬ m.IsContiguous := by
  rw [← Block.lengthOfMask?_eq_none, subnetOf?_text]
  cases hlength : Block.lengthOfMask? m with
  | none => simp
  | some length =>
    have h := (Block.lengthOfMask?_eq_some.mp hlength).1
    simp [Block.ofAddress?, h]

/-- A block is read from each of its three notations, and begins where the bits behind its prefix
are cleared. A dotted text is taken for the mask of a length exactly if it is that mask, and is
refused exactly if it has a one behind a zero. -/
theorem readSubnet?_notations (label : String) :
    (∀ (a : Address) (length : Nat) (h : length ≤ 32),
      (Block.ofAddress a length h).length = length ∧
      (Block.ofAddress a length h).network.value = a.value &&& (Block.maskOf length).value ∧
      (∀ b, readSubnet? label (some s!"{a}/{length}") b =
        .ok (some (Block.ofAddress a length h))) ∧
      readSubnet? label (some (toString length)) a = .ok (some (Block.ofAddress a length h)) ∧
      readSubnet? label (some (Block.maskOf length).text) a =
        .ok (some (Block.ofAddress a length h))) ∧
    ∀ m a : Address,
      (∀ b, readSubnet? label (some m.text) a = .ok (some b) ↔ ∃ length, ∃ h : length ≤ 32,
        m = Block.maskOf length ∧ b = Block.ofAddress a length h) ∧
      (readSubnet? label (some m.text) a = .error (.invalidIp label "subnet" m.text) ↔
        ¬ m.IsContiguous) := by
  have htext : ∀ m a : Address, readSubnet? label (some m.text) a = match subnetOf? m.text a with
      | some b => .ok (some b)
      | none => .error (.invalidIp label "subnet" m.text) := fun m a =>
    readSubnet?_of_isSolid m.isSolid_text label a
  refine ⟨fun a length h => ⟨rfl, Block.network_ofAddress a h, fun b => ?_, ?_, ?_⟩, fun m a => ?_⟩
  · rw [readSubnet?_of_isSolid (isSolid_written a length), subnetOf?_written h]
  · rw [readSubnet?_of_isSolid (Text.isWord_toString length).2, subnetOf?_length h]
  · rw [htext, subnetOf?_text_eq_some.mpr ⟨length, h, rfl, rfl⟩]
  · rw [htext, ← subnetOf?_text_eq_none (a := a)]
    simp only [← subnetOf?_text_eq_some]
    cases hsubnet : subnetOf? m.text a <;> simp

/-- The lab's machine writes its 24 bits in three ways, and a mask with a hole in it is refused. -/
theorem readSubnet?_notations_lab :
    let a : Address := .ofOctets 10 10 0 77
    let hole : Address := .ofOctets 255 0 255 0
    Block.maskOf 24 = .ofOctets 255 255 255 0 ∧
    (readSubnet? "DNS" (some s!"{a}/{24}") a = readSubnet? "DNS" (some (toString 24)) a ∧
      readSubnet? "DNS" (some (toString 24)) a =
        readSubnet? "DNS" (some (Block.maskOf 24).text) a) ∧
    readSubnet? "DNS" (some hole.text) a = .error (.invalidIp "DNS" "subnet" hole.text) := by
  intro a hole
  obtain ⟨-, -, hwritten, hlength, hmask⟩ :=
    (readSubnet?_notations "DNS").1 a 24 (by decide)
  refine ⟨by decide, ⟨(hwritten a).trans hlength.symm, hlength.trans hmask.symm⟩, ?_⟩
  refine (((readSubnet?_notations "DNS").2 hole a).2).mpr fun hcontiguous => ?_
  exact absurd (Ipv4.pairwise_iff_count.mp hcontiguous) (by decide)

end Notations

end NetworkCompiler
