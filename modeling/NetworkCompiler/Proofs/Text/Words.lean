import NetworkCompiler.Proofs.Lists
import NetworkCompiler.Proofs.Text.Lines

/-!
# Words in lines

Texts that are written word by word, with one space between two words (`inLine`) and one line below
the other, are read back line by line and word by word (`words_lines_inLine`), as long as every
word is one : it is not empty and has no blanks (`IsWord`).
-/

namespace NetworkCompiler.Text

open Chars (IsSolid)

/-! ## Words -/

/-- A text that is one word. -/
def IsWord (s : String) : Prop :=
  s.toList ≠ [] ∧ IsSolid s.toList

instance (s : String) : Decidable (IsWord s) :=
  inferInstanceAs (Decidable (s.toList ≠ [] ∧ IsSolid s.toList))

theorem isBlank_of_isAlphanum {c : Char} (h : c.isAlphanum = true) : isBlank c = false := by
  delta Char.isAlphanum Char.isAlpha Char.isUpper Char.isLower Char.isDigit at h
  have hrange : (65 ≤ c.toNat ∧ c.toNat ≤ 90 ∨ 97 ≤ c.toNat ∧ c.toNat ≤ 122) ∨
      48 ≤ c.toNat ∧ c.toNat ≤ 57 := by
    simpa [UInt32.le_iff_toNat_le] using h
  simp [isBlank]
  omega

section Append

variable {s t : String}

theorem isSolid_append (hs : IsSolid s.toList) (ht : IsSolid t.toList) :
    IsSolid (s ++ t).toList := by
  rw [String.toList_append]
  exact List.forall_mem_append.mpr ⟨hs, ht⟩

theorem IsWord.append (hs : IsWord s) (ht : IsSolid t.toList) : IsWord (s ++ t) := by
  obtain ⟨hne, hsolid⟩ := hs
  refine ⟨?_, isSolid_append hsolid ht⟩
  rw [String.toList_append]
  simp [hne]

theorem isWord_append (hs : IsSolid s.toList) (ht : IsWord t) : IsWord (s ++ t) := by
  obtain ⟨hne, hsolid⟩ := ht
  refine ⟨?_, isSolid_append hs hsolid⟩
  rw [String.toList_append]
  simp [hne]

end Append

/-- The digits of a number are a word. -/
theorem isWord_toString (n : Nat) : IsWord (toString n) := by
  constructor
  · exact Chars.toList_toString n ▸ Nat.toDigits_ne_nil
  · intro c hc
    have hdigit := Chars.isDigit_of_mem_toString hc
    exact isBlank_of_isAlphanum (by simp [Char.isAlphanum, hdigit])

/-- Words with something solid between them are a word. -/
theorem isWord_joinWith {sep w : String} {ws : List String} (hsep : IsSolid sep.toList)
    (h : ∀ v ∈ w :: ws, IsWord v) : IsWord (joinWith sep (w :: ws)) := by
  rw [IsWord, joinWith, String.toList_intercalate]
  constructor
  · obtain ⟨c, cs, hw⟩ := List.exists_cons_of_ne_nil (h w List.mem_cons_self).1
    have hc : c ∈ w.toList := hw ▸ List.mem_cons_self
    have hmem : w.toList ∈ (w :: ws).map String.toList := List.mem_map_of_mem List.mem_cons_self
    exact List.ne_nil_of_mem (mem_intercalate_of_mem hmem hc)
  · intro c hc
    rcases mem_intercalate hc with hc | ⟨piece, hpiece, hc⟩
    · exact hsep c hc
    · obtain ⟨v, hv, rfl⟩ := List.mem_map.mp hpiece
      exact (h v hv).2 c hc

theorem isWord_of_mem_words {s w : String} (h : w ∈ words s) : IsWord w := by
  obtain ⟨cs, hcs, rfl⟩ := List.mem_map.mp h
  rw [IsWord, String.toList_ofList]
  exact Chars.isSolid_of_mem_words hcs

/-! ## Lines -/

/-- Words with a space in front of each. -/
def behindSpaces (ws : List String) : String :=
  String.join (ws.map (" " ++ ·))

theorem behindSpaces_append (vs ws : List String) :
    behindSpaces (vs ++ ws) = behindSpaces vs ++ behindSpaces ws := by
  simp [behindSpaces, String.join_append]

theorem behindSpaces_cons (w : String) (ws : List String) :
    behindSpaces (w :: ws) = " " ++ w ++ behindSpaces ws := by
  simp [behindSpaces, String.join_cons]

theorem toList_behindSpaces (ws : List String) :
    (behindSpaces ws).toList = (ws.map String.toList).flatMap (' ' :: ·) := by
  induction ws with
  | nil => rfl
  | cons w ws ih => simp [behindSpaces_cons, ih]

/-- Words on one line, with a space between two. -/
def inLine : List String → String
  | [] => ""
  | w :: ws => w ++ behindSpaces ws

theorem toList_inLine_cons (w : String) (ws : List String) :
    (inLine (w :: ws)).toList = w.toList ++ (ws.map String.toList).flatMap (' ' :: ·) := by
  rw [inLine, String.toList_append, toList_behindSpaces]

theorem mem_inLine {ws : List String} {c : Char} (h : c ∈ (inLine ws).toList) :
    c = ' ' ∨ ∃ w ∈ ws, c ∈ w.toList := by
  cases ws with
  | nil => cases h
  | cons w ws =>
    rw [toList_inLine_cons, List.mem_append] at h
    rcases h with h | h
    · exact Or.inr ⟨w, List.mem_cons_self, h⟩
    · obtain ⟨cs, hcs, hc⟩ := List.mem_flatMap.mp h
      obtain ⟨v, hv, rfl⟩ := List.mem_map.mp hcs
      rcases List.mem_cons.mp hc with rfl | hc
      · exact Or.inl rfl
      · exact Or.inr ⟨v, List.mem_cons_of_mem _ hv, hc⟩

variable {ws : List String} (h : ∀ w ∈ ws, IsWord w)
include h

/-- A line of words has no blanks but spaces. -/
theorem not_mem_inLine {c : Char} (hblank : isBlank c = true) (hspace : c ≠ ' ') :
    c ∉ (inLine ws).toList := by
  intro hc
  rcases mem_inLine hc with hc | ⟨w, hw, hc⟩
  · exact hspace hc
  · have hsolid := (h w hw).2 c hc
    rw [hblank] at hsolid
    cases hsolid

theorem words_behindSpaces : words (behindSpaces ws) = ws := by
  have hwords : ∀ v ∈ ws.map String.toList, v ≠ [] ∧ Chars.IsSolid v :=
    List.forall_mem_map.mpr h
  rw [words, toList_behindSpaces, Chars.words, Chars.wordsAux_flatMap hwords]
  simp

theorem words_inLine : words (inLine ws) = ws := by
  cases ws with
  | nil => rfl
  | cons w ws =>
    have hwords : ∀ v ∈ w.toList :: ws.map String.toList, v ≠ [] ∧ IsSolid v := by
      intro v hv
      rw [← List.map_cons] at hv
      obtain ⟨u, hu, rfl⟩ := List.mem_map.mp hv
      exact h u hu
    rw [words, toList_inLine_cons, Chars.words_append_flatMap hwords]
    simp

omit h in
/-- Lines of words are read back. -/
theorem words_lines_inLine {wss : List (List String)} (h : ∀ ws ∈ wss, ∀ w ∈ ws, IsWord w) :
    (lines (unlines (wss.map inLine))).map words = wss := by
  have hlines : ∀ l ∈ wss.map inLine, IsLine l := by
    intro l hl
    obtain ⟨ws, hws, rfl⟩ := List.mem_map.mp hl
    exact not_mem_inLine (h ws hws) (by decide) (by decide)
  have hreturn : ∀ ws ∈ wss, words (String.ofList (Chars.dropReturn (inLine ws).toList)) = ws := by
    intro ws hws
    have hlast : (inLine ws).toList.getLast? ≠ some '\r' := by
      intro hlast
      exact not_mem_inLine (h ws hws) (by decide) (by decide) (List.mem_of_getLast? hlast)
    rw [Chars.dropReturn_of_getLast? hlast, String.ofList_toList, words_inLine (h ws hws)]
  rw [lines_unlines hlines, List.map_map, List.map_map]
  conv_rhs => rw [← List.map_id wss]
  refine List.map_congr_left fun ws hws => ?_
  rw [Function.comp_apply, Function.comp_apply, hreturn ws hws, id]

end NetworkCompiler.Text
