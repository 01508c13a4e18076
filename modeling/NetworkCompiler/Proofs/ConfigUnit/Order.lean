import Mathlib.Tactic.Common
import NetworkCompiler.ConfigUnit.Basic
import NetworkCompiler.Proofs.ConfigUnit.Labels

/-!
# Ordered and supplied lists of units

`IsOrdered` is what `checkUnits` asks of a list of units (`checkUnits_eq_ok`) : every label may be
the label of a unit and is new, and every precondition is that of an earlier unit or always holds.
So the labels of the list are distinct (`IsOrdered.nodup_labels`).

A list is supplied if it is ordered but that labels may come again (`IsSupplied`). Lists are
supplied piece by piece, as each piece may rely on all labels in front of it, and on a supplied list
`checkUnits` can find nothing wrong but a label that comes again (`checkUnits_of_isSupplied`).
-/

namespace NetworkCompiler.ConfigUnit

/-! ## Ordered lists -/

theorem ne_proceed_of_isUnitLabel {label : String} (h : isUnitLabel label = true) :
    label ≠ proceed := by
  rintro rfl
  revert h
  decide

/-- Units that can be run in their order behind units of the labels `seen`. -/
def IsOrdered : List String → List ConfigUnit → Prop
  | _, [] => True
  | seen, u :: us =>
    isUnitLabel u.label = true ∧ (u.precondition = proceed ∨ u.precondition ∈ seen) ∧
      u.label ∉ seen ∧ IsOrdered (u.label :: seen) us

theorem fault?_eq_none {machine : String} {seen : List String} {u : ConfigUnit} :
    fault? machine seen u = none ↔
      isUnitLabel u.label = true ∧ (u.precondition = proceed ∨ u.precondition ∈ seen) ∧
        u.label ∉ seen := by
  unfold fault?
  split
  · next hlabel => exact ⟨nofun, fun h => by simp [h.1] at hlabel⟩
  next hlabel =>
  have hlabel : isUnitLabel u.label = true := by simpa using hlabel
  split
  · next hmissing =>
    have hmissing : u.precondition ≠ proceed ∧ u.precondition ∉ seen := by simpa using hmissing
    exact ⟨nofun, fun h => (h.2.1.elim hmissing.1 hmissing.2).elim⟩
  next hmet =>
  have hmet : u.precondition = proceed ∨ u.precondition ∈ seen := by
    simpa [or_iff_not_imp_left] using hmet
  split
  · next hseen => exact ⟨nofun, fun h => absurd (by simpa using hseen) h.2.2⟩
  · next hseen => exact ⟨fun _ => ⟨hlabel, hmet, by simpa using hseen⟩, fun _ => rfl⟩

theorem checkFrom_eq_ok {machine : String} {seen : List String} {us : List ConfigUnit} :
    checkFrom machine seen us = .ok () ↔ IsOrdered seen us := by
  induction us generalizing seen with
  | nil => exact ⟨fun _ => trivial, fun _ => rfl⟩
  | cons u us ih =>
    rw [checkFrom, IsOrdered]
    cases hfault : fault? machine seen u with
    | some e =>
      have hnone : ¬fault? machine seen u = none := by simp [hfault]
      rw [fault?_eq_none] at hnone
      exact ⟨nofun, fun h => absurd ⟨h.1, h.2.1, h.2.2.1⟩ hnone⟩
    | none =>
      have hnone := fault?_eq_none.mp hfault
      exact ih.trans ⟨fun h => ⟨hnone.1, hnone.2.1, hnone.2.2, h⟩, fun h => h.2.2.2⟩

/-- The check accepts exactly the lists that can be run in their order. -/
theorem checkUnits_eq_ok {machine : String} {us : List ConfigUnit} :
    checkUnits machine us = .ok () ↔ IsOrdered [] us :=
  checkFrom_eq_ok

theorem IsOrdered.nodup_labels {seen : List String} {us : List ConfigUnit}
    (h : IsOrdered seen us) : (us.map (·.label)).Nodup ∧ ∀ u ∈ us, u.label ∉ seen := by
  induction us generalizing seen with
  | nil => exact ⟨List.nodup_nil, by simp⟩
  | cons u us ih =>
    obtain ⟨-, -, hnew, hrest⟩ := h
    obtain ⟨hnd, hseen⟩ := ih hrest
    constructor
    · refine List.nodup_cons.mpr ⟨fun hmem => ?_, hnd⟩
      obtain ⟨v, hv, hlabel⟩ := List.mem_map.mp hmem
      exact hseen v hv (hlabel ▸ List.mem_cons_self)
    · refine List.forall_mem_cons.mpr ⟨hnew, fun v hv hmem => ?_⟩
      exact hseen v hv (List.mem_cons_of_mem _ hmem)

/-! ## Supplied lists -/

/-- A unit with a legal label that can be run behind units of the labels `seen`. -/
def IsMet (seen : List String) (u : ConfigUnit) : Prop :=
  isUnitLabel u.label = true ∧ (u.precondition = proceed ∨ u.precondition ∈ seen)

/-- Units with legal labels that can be run behind units of the labels `seen`. -/
def IsSupplied : List String → List ConfigUnit → Prop
  | _, [] => True
  | seen, u :: us => IsMet seen u ∧ IsSupplied (u.label :: seen) us

variable {seen seen' : List String} {u : ConfigUnit} {us vs : List ConfigUnit}

theorem IsFree.isMet (h : u.IsFree) : IsMet seen u :=
  ⟨h.label, .inl h.precondition⟩

theorem IsFree.isMet_after (h : u.IsFree) {p : String} (hp : p ∈ seen) : IsMet seen (u.after p) :=
  ⟨h.label, .inr hp⟩

theorem IsMet.mono (h : IsMet seen u) (hseen : seen ⊆ seen') : IsMet seen' u :=
  ⟨h.1, h.2.imp_right fun hp => hseen hp⟩

theorem IsSupplied.mono (h : IsSupplied seen us) (hseen : seen ⊆ seen') : IsSupplied seen' us := by
  induction us generalizing seen seen' with
  | nil => trivial
  | cons u us ih => exact ⟨h.1.mono hseen, ih h.2 (List.cons_subset_cons _ hseen)⟩

theorem IsOrdered.isSupplied (h : IsOrdered seen us) : IsSupplied seen us := by
  induction us generalizing seen with
  | nil => trivial
  | cons u us ih => exact ⟨⟨h.1, h.2.1⟩, ih h.2.2.2⟩

theorem isSupplied_of_forall (h : ∀ u ∈ us, IsMet seen u) : IsSupplied seen us := by
  induction us generalizing seen with
  | nil => trivial
  | cons u us ih =>
    refine ⟨h u List.mem_cons_self, ih fun v hv => ?_⟩
    exact (h v (List.mem_cons_of_mem _ hv)).mono (List.subset_cons_self _ _)

/-- The units behind a list may rely on its labels. -/
theorem IsSupplied.append_labels (hu : IsSupplied seen us)
    (hv : IsSupplied (us.map (·.label) ++ seen) vs) : IsSupplied seen (us ++ vs) := by
  induction us generalizing seen with
  | nil => exact hv
  | cons u us ih =>
    exact ⟨hu.1, ih hu.2 (hv.mono (List.perm_middle (a := u.label)).symm.subset)⟩

theorem IsSupplied.append (hu : IsSupplied seen us) (hv : IsSupplied seen vs) :
    IsSupplied seen (us ++ vs) :=
  hu.append_labels (hv.mono (List.subset_append_right _ _))

theorem isSupplied_flatten {uss : List (List ConfigUnit)} (h : ∀ us ∈ uss, IsSupplied seen us) :
    IsSupplied seen uss.flatten := by
  induction uss with
  | nil => trivial
  | cons us uss ih =>
    obtain ⟨hus, huss⟩ := List.forall_mem_cons.mp h
    exact hus.append (ih huss)

theorem isSupplied_flatMap {α : Type} {f : α → List ConfigUnit} {xs : List α}
    (h : ∀ x ∈ xs, IsSupplied seen (f x)) : IsSupplied seen (xs.flatMap f) :=
  isSupplied_flatten (List.forall_mem_map.mpr h)

/-! ## What a supplied list is -/

theorem IsSupplied.isUnitLabel (h : IsSupplied seen us) (hu : u ∈ us) :
    isUnitLabel u.label = true := by
  induction us generalizing seen with
  | nil => cases hu
  | cons v us ih =>
    rcases List.mem_cons.mp hu with rfl | hu
    · exact h.1.1
    · exact ih h.2 hu

/-- The precondition of every unit is the label of one in front of it. -/
theorem IsSupplied.precondition (h : IsSupplied seen (us ++ u :: vs)) :
    u.precondition = proceed ∨ u.precondition ∈ seen ∨
      ∃ v ∈ us, v.label = u.precondition := by
  induction us generalizing seen with
  | nil => exact h.1.2.imp_right .inl
  | cons v us ih =>
    rcases ih h.2 with hp | hp | ⟨w, hw, hp⟩
    · exact .inl hp
    · rcases List.mem_cons.mp hp with hp | hp
      · exact .inr (.inr ⟨v, List.mem_cons_self, hp.symm⟩)
      · exact .inr (.inl hp)
    · exact .inr (.inr ⟨w, List.mem_cons_of_mem _ hw, hp⟩)

theorem fault?_of_isMet {machine : String} {e : CompileError} (h : IsMet seen u)
    (he : fault? machine seen u = some e) : e = .duplicateUnit machine u.label := by
  have hmet : ¬(u.precondition ≠ proceed ∧ u.precondition ∉ seen) := fun hp => h.2.elim hp.1 hp.2
  rw [fault?, if_neg (by simp [h.1]), if_neg (by simpa using hmet)] at he
  split at he
  · exact (Option.some.inj he).symm
  · cases he

theorem checkFrom_of_isSupplied {machine : String} {e : CompileError} (h : IsSupplied seen us)
    (he : checkFrom machine seen us = .error e) :
    ∃ u ∈ us, e = .duplicateUnit machine u.label := by
  induction us generalizing seen with
  | nil => cases he
  | cons u us ih =>
    rw [checkFrom] at he
    cases hfault : fault? machine seen u with
    | some e' =>
      rw [hfault] at he
      cases he
      exact ⟨u, List.mem_cons_self, fault?_of_isMet h.1 hfault⟩
    | none =>
      rw [hfault] at he
      obtain ⟨v, hv, rfl⟩ := ih h.2 he
      exact ⟨v, List.mem_cons_of_mem _ hv, rfl⟩

/-- Nothing can be wrong with a supplied list but that a label comes again. -/
theorem checkUnits_of_isSupplied {machine : String} {e : CompileError} (h : IsSupplied [] us)
    (he : checkUnits machine us = .error e) : ∃ u ∈ us, e = .duplicateUnit machine u.label :=
  checkFrom_of_isSupplied h he

end NetworkCompiler.ConfigUnit
