import NetworkCompiler.Proofs.ConfigUnit.Conduct

/-!
# Runnable lists of units

`IsRunnable` says what a list of units has to be, without the order in which `checkUnits` looks at
it : labels that are names of the shell, none of them reserved and none twice, and preconditions
that always hold or are the labels of units further in front. Every unit of such a list waits for
one chain of units and no other (`IsRunnable.existsUnique_isChain`), so there are no circles.

`Offends` says what is wrong with a unit behind others. The check accepts the runnable lists, and of
any other list it reports the first unit that offends (`checkUnits_exact`).
-/

namespace NetworkCompiler.ConfigUnit

/-- A label that is a name of the shell and not reserved. -/
def IsLegalLabel (label : String) : Prop :=
  IsShellName label ∧ label ≠ proceed ∧ label ≠ headerName ∧ label ≠ footerName

/-- A unit whose precondition always holds or is the label of one of the units in front. -/
def IsBehindPrecondition (before : List ConfigUnit) (u : ConfigUnit) : Prop :=
  u.precondition = proceed ∨ ∃ v ∈ before, v.label = u.precondition

/-- Units that can be run in their order. -/
structure IsRunnable (us : List ConfigUnit) : Prop where
  labels : ∀ u ∈ us, IsLegalLabel u.label
  nodup : (us.map (·.label)).Nodup
  preconditions : ∀ before u after, us = before ++ u :: after → IsBehindPrecondition before u

/-- What is wrong with a unit behind others : its label, or else its precondition, or else that its
label was there before. -/
inductive Offends (machine : String) (before : List ConfigUnit) (u : ConfigUnit) :
    CompileError → Prop where
  | label : ¬IsLegalLabel u.label → Offends machine before u (.invalidUnitLabel machine u.label)
  | precondition : IsLegalLabel u.label → ¬IsBehindPrecondition before u →
      Offends machine before u (.preconditionNotRendered machine u.label u.precondition)
  | duplicate : IsLegalLabel u.label → IsBehindPrecondition before u →
      (∃ v ∈ before, v.label = u.label) →
      Offends machine before u (.duplicateUnit machine u.label)

/-- What is wrong with the first unit of a list that offends. -/
def IsFirstOffence (machine : String) (us : List ConfigUnit) (e : CompileError) : Prop :=
  ∃ before u after, us = before ++ u :: after ∧ Offends machine before u e ∧
    ∀ front v back e', before = front ++ v :: back → ¬Offends machine front v e'

/-! ## Runnable lists are ordered -/

theorem isUnitLabel_iff {label : String} : isUnitLabel label = true ↔ IsLegalLabel label := by
  rw [isUnitLabel, Bool.and_eq_true, isIdentifier_iff, IsLegalLabel]
  simp [reservedLabels]

theorem isOrdered_append {seen : List String} {us vs : List ConfigUnit} :
    IsOrdered seen (us ++ vs) ↔
      IsOrdered seen us ∧ IsOrdered ((us.map (·.label)).reverse ++ seen) vs := by
  induction us generalizing seen with
  | nil => simp [IsOrdered]
  | cons u us ih => simp [IsOrdered, ih, and_assoc]

section Runnable

variable {machine : String} {us vs : List ConfigUnit} {u : ConfigUnit}

theorem IsRunnable.of_append (h : IsRunnable (us ++ vs)) : IsRunnable us where
  labels u hu := h.labels u (List.mem_append_left vs hu)
  nodup := by
    have hnd := h.nodup
    rw [List.map_append] at hnd
    exact hnd.of_append_left
  preconditions before u after hus := h.preconditions before u (after ++ vs) (by simp [hus])

theorem IsRunnable.label_ne (h : IsRunnable (us ++ u :: vs)) : ∀ v ∈ us, v.label ≠ u.label := by
  have hnd := h.nodup
  rw [List.map_append, List.nodup_append] at hnd
  exact fun v hv => hnd.2.2 _ (List.mem_map_of_mem hv) _ List.mem_cons_self

/-- The ordered lists are the runnable ones. -/
theorem isOrdered_iff : IsOrdered [] us ↔ IsRunnable us := by
  constructor
  · intro h
    refine ⟨fun u hu => isUnitLabel_iff.mp (h.isSupplied.isUnitLabel hu), h.nodup_labels.1, ?_⟩
    rintro before u after rfl
    simpa [IsBehindPrecondition] using h.isSupplied.precondition
  · intro h
    -- The last unit may rely on all others, so the list grows at its end.
    induction us using List.reverseRecOn with
    | nil => trivial
    | append_singleton us u ih =>
      have hlabel := isUnitLabel_iff.mpr (h.labels u (by simp))
      have hnew := h.label_ne
      have hprecondition := h.preconditions us u [] rfl
      refine isOrdered_append.mpr ⟨ih h.of_append, hlabel, ?_, by simpa using hnew, trivial⟩
      simpa [IsBehindPrecondition] using hprecondition

/-! ## Chains of preconditions -/

/-- Of distinct labels, one of which none is that of what always holds, there is one way to follow
preconditions. -/
theorem isChain_unique (h : IsRunnable us) {ws ws' : List ConfigUnit} (hws : IsChain us u ws)
    (hws' : IsChain us u ws') : ws = ws' := by
  have hproceed : ∀ v ∈ us, v.label = proceed → False := fun v hv => (h.labels v hv).2.1
  induction hws generalizing ws' with
  | proceed hp =>
    cases hws' with
    | proceed => rfl
    | behind hv hlabel => exact (hproceed _ hv (hlabel.trans hp)).elim
  | behind hv hlabel _ ih =>
    cases hws' with
    | proceed hp => exact (hproceed _ hv (hlabel.trans hp)).elim
    | behind hv' hlabel' hchain' =>
      obtain rfl := List.inj_on_of_nodup_map h.nodup hv hv' (hlabel.trans hlabel'.symm)
      rw [ih hchain']

/-- Whatever preconditions are followed, the way ends at what always holds. -/
theorem IsRunnable.existsUnique_isChain (h : IsRunnable us) (hu : u ∈ us) :
    ∃! ws, IsChain us u ws := by
  obtain ⟨ws, hws⟩ := (isOrdered_iff.mpr h).isSupplied.exists_isChain List.prefix_rfl u hu
  exact ⟨ws, hws, fun _ hws' => isChain_unique h hws' hws⟩

/-! ## Offences -/

/-- Labels are distinct if none is that of a unit further in front. -/
theorem nodup_labels_of_forall_ne
    (h : ∀ before u after, us = before ++ u :: after → ∀ v ∈ before, v.label ≠ u.label) :
    (us.map (·.label)).Nodup := by
  refine List.nodup_iff_sublist.mpr fun label hsub => ?_
  obtain ⟨front, back, hsplit, hfront, hback⟩ := List.cons_sublist_iff.mp hsub
  obtain ⟨vs, ws, rfl, rfl, rfl⟩ := List.map_eq_append_iff.mp hsplit
  obtain ⟨v, hv, rfl⟩ := List.mem_map.mp hfront
  obtain ⟨w, hw, hlabel⟩ := List.mem_map.mp (List.singleton_sublist.mp hback)
  obtain ⟨before, after, rfl⟩ := List.append_of_mem hw
  exact h (vs ++ before) w after (by simp) v (List.mem_append_left _ hv) hlabel.symm

/-- A list is runnable exactly if no unit of it offends. -/
theorem isRunnable_iff : IsRunnable us ↔
    ∀ before u after e, us = before ++ u :: after → ¬Offends machine before u e := by
  constructor
  · rintro h before u after e rfl hoffends
    cases hoffends with
    | label hlabel => exact hlabel (h.labels u (by simp))
    | precondition _ hmissing => exact hmissing (h.preconditions before u after rfl)
    | duplicate _ _ hagain =>
      obtain ⟨v, hv, hlabel⟩ := hagain
      exact h.label_ne v hv hlabel
  · intro h
    have hlegal : ∀ before u after, us = before ++ u :: after → IsLegalLabel u.label :=
      fun before u after hus => by_contra fun hlabel => h before u after _ hus (.label hlabel)
    have hbehind : ∀ before u after, us = before ++ u :: after → IsBehindPrecondition before u :=
      fun before u after hus => by_contra fun hmissing =>
        h before u after _ hus (.precondition (hlegal before u after hus) hmissing)
    have hnew : ∀ before u after, us = before ++ u :: after → ∀ v ∈ before, v.label ≠ u.label :=
      fun before u after hus v hv hlabel => h before u after _ hus
        (.duplicate (hlegal before u after hus) (hbehind before u after hus) ⟨v, hv, hlabel⟩)
    refine ⟨fun u hu => ?_, ?_, hbehind⟩
    · obtain ⟨before, after, hus⟩ := List.append_of_mem hu
      exact hlegal before u after hus
    · exact nodup_labels_of_forall_ne hnew

theorem fault?_eq_some_iff {seen : List String} {e : CompileError}
    (hseen : ∀ label, label ∈ seen ↔ ∃ v ∈ us, v.label = label) :
    fault? machine seen u = some e ↔ Offends machine us u e := by
  have hlabel : (!isUnitLabel u.label) = true ↔ ¬IsLegalLabel u.label := by
    rw [← isUnitLabel_iff]
    simp
  have hmissing : (u.precondition ≠ proceed && !seen.contains u.precondition) = true ↔
      ¬IsBehindPrecondition us u := by
    rw [IsBehindPrecondition, ← hseen]
    simp
  have hagain : seen.contains u.label = true ↔ ∃ v ∈ us, v.label = u.label := by
    rw [← hseen]
    simp
  rw [fault?]
  constructor
  · intro h
    split_ifs at h with h₁ h₂ h₃
    · cases h
      exact .label (hlabel.mp h₁)
    · cases h
      exact .precondition (not_not.mp (mt hlabel.mpr h₁)) (hmissing.mp h₂)
    · cases h
      exact .duplicate (not_not.mp (mt hlabel.mpr h₁)) (not_not.mp (mt hmissing.mpr h₂))
        (hagain.mp h₃)
  · intro h
    cases h with
    | label h₁ => rw [if_pos (hlabel.mpr h₁)]
    | precondition h₁ h₂ => rw [if_neg (fun h => hlabel.mp h h₁), if_pos (hmissing.mpr h₂)]
    | duplicate h₁ h₂ h₃ =>
      rw [if_neg (fun h => hlabel.mp h h₁), if_neg (fun h => hmissing.mp h h₂),
        if_pos (hagain.mpr h₃)]

theorem checkFrom_append {seen : List String} (h : IsOrdered seen us) :
    checkFrom machine seen (us ++ vs) =
      checkFrom machine ((us.map (·.label)).reverse ++ seen) vs := by
  induction us generalizing seen with
  | nil => rfl
  | cons u us ih =>
    have hnone : fault? machine seen u = none := fault?_eq_none.mpr ⟨h.1, h.2.1, h.2.2.1⟩
    rw [List.cons_append, checkFrom, hnone]
    simpa using ih h.2.2.2

/-- An error is the fault of a unit behind units that can be run in their order. -/
theorem exists_fault_of_checkFrom {seen : List String} {e : CompileError}
    (h : checkFrom machine seen us = .error e) :
    ∃ before u after, us = before ++ u :: after ∧ IsOrdered seen before ∧
      fault? machine ((before.map (·.label)).reverse ++ seen) u = some e := by
  induction us generalizing seen with
  | nil => cases h
  | cons u us ih =>
    rw [checkFrom] at h
    cases hfault : fault? machine seen u with
    | some e' =>
      rw [hfault] at h
      cases h
      exact ⟨[], u, us, rfl, trivial, hfault⟩
    | none =>
      rw [hfault] at h
      obtain ⟨before, v, after, rfl, hbefore, hv⟩ := ih h
      obtain ⟨hlabel, hmet, hnew⟩ := fault?_eq_none.mp hfault
      exact ⟨u :: before, v, after, rfl, ⟨hlabel, hmet, hnew, hbefore⟩, by simpa using hv⟩

theorem checkUnits_eq_error {e : CompileError} :
    checkUnits machine us = .error e ↔ IsFirstOffence machine us e := by
  have hfault : ∀ before u, fault? machine ((before.map (·.label)).reverse ++ []) u = some e ↔
      Offends machine before u e := fun before u =>
    fault?_eq_some_iff fun label => by simp
  constructor
  · intro h
    obtain ⟨before, u, after, hus, hbefore, hu⟩ := exists_fault_of_checkFrom h
    refine ⟨before, u, after, hus, (hfault before u).mp hu, ?_⟩
    exact isRunnable_iff.mp (isOrdered_iff.mp hbefore)
  · rintro ⟨before, u, after, rfl, hu, hbefore⟩
    have hordered := isOrdered_iff.mpr (isRunnable_iff.mpr hbefore)
    rw [checkUnits, checkFrom_append hordered, checkFrom, (hfault before u).mpr hu]

end Runnable

/-! ## The check -/

/-- The check accepts exactly the lists with distinct labels, all of them names of the shell and not
reserved, in which every precondition always holds or is the label of a unit further in front. From
any unit of such a list preconditions lead to the one that always holds, in one way. Of any other
list the check reports the first unit that offends. -/
theorem checkUnits_exact (machine : String) (us : List ConfigUnit) :
    (checkUnits machine us = .ok () ↔ IsRunnable us) ∧
    (IsRunnable us → ∀ u ∈ us, ∃! ws, IsChain us u ws) ∧
    ∀ e, checkUnits machine us = .error e ↔ IsFirstOffence machine us e :=
  ⟨checkUnits_eq_ok.trans isOrdered_iff, fun h _ hu => h.existsUnique_isChain hu,
    fun _ => checkUnits_eq_error⟩

/-- Switches of which one comes again, behind a fuse that is not there. -/
def tangledUnits : List ConfigUnit := [
  new "power" "power" "on" "power",
  (new "lamp" "lamp" "on" "lamp").after "power",
  (new "power" "power" "on" "power").after "fuse",
  new "2nd" "lamp" "on" "lamp"]

theorem checkUnits_exact_panel :
    IsRunnable panelUnits ∧
    (∃ u ∈ panelUnits, ∃ v ∈ panelUnits, u.label = "alarm" ∧ v.label = "fuse" ∧
      ∀ ws, IsChain panelUnits u ws ↔ ws = [v]) ∧
    IsFirstOffence "web" tangledUnits (.preconditionNotRendered "web" "power" "fuse") := by
  have hrunnable : IsRunnable panelUnits :=
    (checkUnits_exact "web" panelUnits).1.mp (by decide)
  refine ⟨hrunnable, ?_, (checkUnits_exact "web" tangledUnits).2.2 _ |>.mp (by decide)⟩
  have hfuse : singleton "fuse" "fuse" "on" ∈ panelUnits := by simp [panelUnits]
  have halarm : (new "alarm" "alarm" "on" "alarm").after "fuse" ∈ panelUnits := by
    simp [panelUnits]
  refine ⟨_, halarm, _, hfuse, rfl, rfl, fun ws => ⟨fun hws => ?_, ?_⟩⟩
  · have hchain := (checkUnits_exact "web" panelUnits).2.1 hrunnable _ halarm
    exact hchain.unique hws (.behind hfuse rfl (.proceed rfl))
  · rintro rfl
    exact .behind hfuse rfl (.proceed rfl)

end NetworkCompiler.ConfigUnit
