import Mathlib.Tactic.Common
import NetworkCompiler.Dictionary

/-!
# Dictionaries in order

The keys of a dictionary that was made from a list ascend (`isSorted_ofList`), and a dictionary
with ascending keys is what its own entries make (`ofList_eq_self`). So a dictionary that was
written entry by entry is read back. What is looked up is an entry, and every entry's key is found.
-/

namespace NetworkCompiler.Dictionary

section Lookup

variable {κ α : Type} [DecidableEq κ]

theorem mem_of_get? {k : κ} {v : α} {d : Dictionary κ α} (h : get? k d = some v) :
    (k, v) ∈ d := by
  induction d with
  | nil => cases h
  | cons e d ih =>
    rw [get?] at h
    split at h
    · next hk =>
      cases h
      exact hk ▸ List.mem_cons_self
    · exact List.mem_cons_of_mem _ (ih h)

theorem isSome_get?_of_mem {e : κ × α} {d : Dictionary κ α} (h : e ∈ d) :
    (get? e.1 d).isSome = true := by
  induction d with
  | nil => cases h
  | cons e' d ih =>
    rw [get?]
    split
    · rfl
    · next hne =>
      rcases List.mem_cons.mp h with rfl | h
      · exact absurd rfl hne
      · exact ih h

end Lookup

variable {κ α : Type} [LT κ] [DecidableLT κ] [DecidableEq κ]

/-- The keys ascend. -/
def IsSorted (d : Dictionary κ α) : Prop :=
  d.Pairwise fun e f => e.1 < f.1

theorem eq_or_mem_of_mem_insert {k : κ} {v : α} {d : Dictionary κ α} {e : κ × α}
    (h : e ∈ insert k v d) : e = (k, v) ∨ e ∈ d := by
  induction d with
  | nil => simpa [insert] using h
  | cons f d ih =>
    obtain ⟨k', v'⟩ := f
    rw [insert] at h
    split_ifs at h with hk hlt
    · rcases List.mem_cons.mp h with h | h
      · exact Or.inl h
      · exact Or.inr (List.mem_cons_of_mem _ h)
    · exact List.mem_cons.mp h
    · rcases List.mem_cons.mp h with rfl | h
      · exact Or.inr List.mem_cons_self
      · exact (ih h).imp_right (List.mem_cons_of_mem _)

theorem mem_of_mem_foldl {l : List (κ × α)} {d : Dictionary κ α} {e : κ × α}
    (h : e ∈ l.foldl (fun d e => insert e.1 e.2 d) d) : e ∈ d ∨ e ∈ l := by
  induction l generalizing d with
  | nil => exact Or.inl h
  | cons f l ih =>
    rcases ih h with h | h
    · rcases eq_or_mem_of_mem_insert h with rfl | h
      · exact Or.inr List.mem_cons_self
      · exact Or.inl h
    · exact Or.inr (List.mem_cons_of_mem _ h)

theorem mem_of_mem_ofList {l : List (κ × α)} {e : κ × α} (h : e ∈ ofList l) : e ∈ l :=
  (mem_of_mem_foldl h).resolve_left List.not_mem_nil

/-- A dictionary that was made from distinct keys has what was put under each. -/
theorem get?_ofList_eq_some {l : List (κ × α)} (hnd : (l.map (·.1)).Nodup) {k : κ} {v : α} :
    get? k (ofList l) = some v ↔ (k, v) ∈ l := by
  have hfold : ∀ d : Dictionary κ α, get? k (l.foldl (fun d e => insert e.1 e.2 d) d) = some v ↔
      (k, v) ∈ l ∨ k ∉ l.map (·.1) ∧ get? k d = some v := by
    induction l with
    | nil => simp
    | cons e l ih =>
      obtain ⟨j, w⟩ := e
      obtain ⟨hj, hnd⟩ := List.nodup_cons.mp hnd
      intro d
      rw [List.foldl_cons, ih hnd]
      by_cases hk : k = j
      · subst hk
        have hv : (k, v) ∉ l := fun hmem => hj (List.mem_map_of_mem (f := (·.1)) hmem)
        rw [get?_insert_self, Option.some_inj, or_iff_right hv, and_iff_right hj]
        constructor
        · rintro rfl
          exact .inl List.mem_cons_self
        · rintro (hmem | ⟨hnot, -⟩)
          · rcases List.mem_cons.mp hmem with heq | hmem
            · exact (Prod.mk.inj heq).2.symm
            · exact absurd hmem hv
          · exact absurd List.mem_cons_self hnot
      · have hne : (k, v) ≠ (j, w) := fun h => hk (Prod.mk.inj h).1
        rw [get?_insert_of_ne hk, List.mem_cons, or_iff_right hne, List.map_cons, List.mem_cons,
          or_iff_right hk]
  rw [ofList, hfold, get?]
  simp

section Order

variable [LE κ] [Std.IsLinearOrder κ] [Std.LawfulOrderLT κ]

theorem isSorted_insert {k : κ} {v : α} {d : Dictionary κ α} (h : IsSorted d) :
    IsSorted (insert k v d) := by
  induction d with
  | nil => simp [insert, IsSorted]
  | cons f d ih =>
    obtain ⟨k', v'⟩ := f
    obtain ⟨hhead, htail⟩ := List.pairwise_cons.mp h
    rw [insert]
    split_ifs with hk hlt
    · subst hk
      exact List.pairwise_cons.mpr ⟨hhead, htail⟩
    · refine List.pairwise_cons.mpr ⟨List.forall_mem_cons.mpr ⟨hlt, ?_⟩, h⟩
      intro e he
      exact Std.lt_trans hlt (hhead e he)
    · have hgt : k' < k := Std.lt_of_le_of_ne (Std.not_lt.mp hlt) (Ne.symm hk)
      refine List.pairwise_cons.mpr ⟨fun e he => ?_, ih htail⟩
      rcases eq_or_mem_of_mem_insert he with rfl | he
      · exact hgt
      · exact hhead e he

theorem isSorted_ofList (l : List (κ × α)) : IsSorted (ofList l) := by
  have hfold : ∀ d : Dictionary κ α, IsSorted d →
      IsSorted (l.foldl (fun d e => insert e.1 e.2 d) d) := by
    induction l with
    | nil => exact fun d hd => hd
    | cons e l ih => exact fun d hd => ih _ (isSorted_insert hd)
  exact hfold [] List.Pairwise.nil

/-- A key above all others comes last. -/
theorem insert_of_forall_lt {k : κ} {v : α} {d : Dictionary κ α} (h : ∀ e ∈ d, e.1 < k) :
    insert k v d = d ++ [(k, v)] := by
  induction d with
  | nil => rfl
  | cons f d ih =>
    obtain ⟨k', v'⟩ := f
    obtain ⟨hlt, htail⟩ := List.forall_mem_cons.mp h
    have hne : k ≠ k' := by
      rintro rfl
      exact Std.lt_irrefl hlt
    have hnot : ¬k < k' := fun hgt => Std.lt_irrefl (Std.lt_trans hgt hlt)
    rw [insert, if_neg hne, if_neg hnot, ih htail, List.cons_append]

theorem ofList_eq_self {d : Dictionary κ α} (h : IsSorted d) : ofList d = d := by
  have hfold : ∀ acc : Dictionary κ α, IsSorted (acc ++ d) →
      d.foldl (fun d e => insert e.1 e.2 d) acc = acc ++ d := by
    intro acc hacc
    induction d generalizing acc with
    | nil => simp
    | cons e d ih =>
      obtain ⟨hd, hcross⟩ := (List.pairwise_append.mp hacc).2
      have hlast : insert e.1 e.2 acc = acc ++ [e] :=
        insert_of_forall_lt fun f hf => hcross f hf e List.mem_cons_self
      have hmove : acc ++ e :: d = acc ++ [e] ++ d := by simp
      rw [List.foldl_cons, hlast, hmove]
      exact ih hd.of_cons _ (hmove ▸ hacc)
  exact hfold [] h

end Order

end NetworkCompiler.Dictionary
