import NetworkCompiler.Proofs.ConfigUnit.Conduct
import NetworkCompiler.Proofs.Lists

/-!
# Second runs

What a run in config mode leaves to a second one. On a machine that is steady under a list of units
(`Host.IsSteady`), a unit that passed holds from its turn on, to the end of the run and through the
next one (`Course.holdsAt`). In the second run such a unit is ready again, as whatever it waits for
passed before and passes again (`ready_mono`), so its turn is one audit and nothing else
(`Course.repeats`).
-/

namespace NetworkCompiler.ConfigUnit

variable {σ : Type} {host : Host σ} {us : List ConfigUnit}

/-! ## Steady machines -/

/-- Whether the audit of a unit would pass. -/
def HoldsAt (host : Host σ) (u : ConfigUnit) (s : σ) : Prop :=
  u.passes ((host.audit u.audit).run s).1 = true

/-- A machine on which the units of a list do not disturb each other. -/
structure Host.IsSteady (host : Host σ) (us : List ConfigUnit) : Prop where
  /-- Audits change nothing. -/
  state_audit : ∀ u ∈ us, ∀ s, ((host.audit u.audit).run s).2 = s
  /-- The command of a unit leaves whatever holds of another unit. -/
  holdsAt_configure : ∀ u ∈ us, ∀ v ∈ us, u ≠ v → ∀ command, u.config = some command →
    ∀ s, HoldsAt host v s → HoldsAt host v ((host.configure command).run s).2

namespace Host.IsSteady

theorem state_eq (h : host.IsSteady us) {u : ConfigUnit} (hu : u ∈ us) {s s' : σ}
    {output : String} (haudit : (host.audit u.audit).run s = (output, s')) : s' = s := by
  have hstate := h.state_audit u hu s
  rwa [haudit] at hstate

end Host.IsSteady

/-! ## One turn -/

section Turns

variable {u v : ConfigUnit} {isReady : Bool} {s s' : σ} {xs : List Exchange} {o : Outcome}

/-- The turn of a unit leaves whatever holds of another unit. -/
theorem Takes.holdsAt_other (h : Takes host u isReady s xs o s') (hhost : host.IsSteady us)
    (hu : u ∈ us) (hv : v ∈ us) (huv : u ≠ v) (hs : HoldsAt host v s) : HoldsAt host v s' := by
  cases h with
  | blocked => exact hs
  | satisfied haudit _ => rwa [hhost.state_eq hu haudit]
  | observed haudit _ _ => rwa [hhost.state_eq hu haudit]
  | mended haudit _ hconfig hagain =>
    rw [hhost.state_eq hu hagain, hhost.state_eq hu haudit]
    exact hhost.holdsAt_configure u hu v hv huv _ hconfig s hs

/-- A unit that passed holds behind its turn. -/
theorem Takes.holdsAt_of_passed (h : Takes host u isReady s xs o s') (hhost : host.IsSteady us)
    (hu : u ∈ us) (ho : o.passed = true) : HoldsAt host u s' := by
  cases h with
  | blocked => simp [Outcome.passed] at ho
  | satisfied haudit hpasses =>
    rw [hhost.state_eq hu haudit, HoldsAt, haudit]
    exact hpasses
  | observed => simp [Outcome.passed] at ho
  | mended _ _ _ hagain =>
    rw [hhost.state_eq hu hagain, HoldsAt, hagain]
    simpa using ho

/-- A unit that holds and may be run is only audited. -/
theorem Takes.of_holdsAt (h : Takes host u true s xs o s') (hs : HoldsAt host u s) :
    o.passed = true ∧ xs.filterMap Exchange.command? = [] := by
  cases h with
  | satisfied => simp [Outcome.passed, List.filterMap_cons]
  | observed haudit hpasses _ => simp [HoldsAt, haudit, hpasses] at hs
  | mended haudit hpasses _ _ => simp [HoldsAt, haudit, hpasses] at hs

end Turns

/-! ## Courses -/

namespace Course

variable {done done' : List Outcome} {s s' p p' : σ} {ts ts' : List Turn}

/-- The turns of other units leave whatever holds of a unit. -/
theorem holdsAt_other (h : Course host done s ts s') (hhost : host.IsSteady us)
    (hts : ∀ t ∈ ts, t.unit ∈ us) {v : ConfigUnit} (hv : v ∈ us) (hne : ∀ t ∈ ts, t.unit ≠ v)
    (hs : HoldsAt host v s) : HoldsAt host v s' := by
  induction h with
  | nil => exact hs
  | cons htakes _ ih =>
    obtain ⟨ht, hts⟩ := List.forall_mem_cons.mp hts
    obtain ⟨hne', hne⟩ := List.forall_mem_cons.mp hne
    exact ih hts hne (htakes.holdsAt_other hhost ht hv hne' hs)

/-- Whatever passed in a course holds behind it. -/
theorem holdsAt (h : Course host done s ts s') (hhost : host.IsSteady us)
    (hts : ∀ t ∈ ts, t.unit ∈ us) (hnd : (ts.map (·.unit)).Nodup) :
    ∀ t ∈ ts, t.outcome.passed = true → HoldsAt host t.unit s' := by
  induction h with
  | nil => simp
  | @cons _ _ _ _ t ts htakes hrest ih =>
    obtain ⟨ht, hts⟩ := List.forall_mem_cons.mp hts
    obtain ⟨hnew, hnd⟩ := List.nodup_cons.mp hnd
    refine List.forall_mem_cons.mpr ⟨fun hpassed => ?_, ih hts hnd⟩
    exact hrest.holdsAt_other hhost hts ht
      (fun w hw hwt => hnew (List.mem_map.mpr ⟨w, hw, hwt⟩))
      (htakes.holdsAt_of_passed hhost ht hpassed)

end Course

/-! ## The second run -/

/-- An outcome of the same unit that passes if the other did. -/
def Outcome.IsKept (o o' : Outcome) : Prop :=
  o.label = o'.label ∧ (o.passed = true → o'.passed = true)

/-- Whatever could be run behind some outcomes can be run behind others that keep them. -/
theorem ready_mono {done done' : List Outcome} (h : List.Forall₂ Outcome.IsKept done done')
    {u : ConfigUnit} (hready : ready done u = true) : ready done' u = true := by
  rw [ready, Bool.or_eq_true] at hready ⊢
  refine hready.imp_right fun hlatest => ?_
  have hreverse := List.forall₂_reverse_iff.mpr h
  generalize done.reverse = os at hlatest hreverse
  generalize done'.reverse = os' at hreverse ⊢
  induction hreverse with
  | nil => simp at hlatest
  | @cons o o' _ _ ho _ ih =>
    by_cases hlabel : o'.label = u.precondition
    · simpa [List.find?_cons, ho.1, hlabel] using ho.2 (by simpa [ho.1, hlabel] using hlatest)
    · rw [List.find?_cons_of_neg (by simpa [ho.1] using hlabel)] at hlatest
      rw [List.find?_cons_of_neg (by simpa using hlabel)]
      exact ih hlatest

/-- A turn in which a unit that passed before only passes again. -/
def Turn.IsRepeat (t t' : Turn) : Prop :=
  t'.unit = t.unit ∧
    (t.outcome.passed = true → t'.outcome.passed = true ∧ t'.commands = [])

namespace Course

variable {done done' : List Outcome} {s s' p p' : σ} {ts ts' : List Turn}

/-- Behind outcomes that keep those of a course, and from a state at which everything holds that
passed in it, the same units repeat the course. -/
theorem repeats (h : Course host done s ts s') (h' : Course host done' p ts' p')
    (hhost : host.IsSteady us) (hts : ∀ t ∈ ts, t.unit ∈ us) (hnd : (ts.map (·.unit)).Nodup)
    (hunits : ts'.map (·.unit) = ts.map (·.unit)) (hdone : List.Forall₂ Outcome.IsKept done done')
    (hholds : ∀ t ∈ ts, t.outcome.passed = true → HoldsAt host t.unit p) :
    List.Forall₂ Turn.IsRepeat ts ts' := by
  induction h generalizing done' p ts' with
  | nil =>
    obtain rfl := List.map_eq_nil_iff.mp hunits
    exact .nil
  | @cons _ _ _ _ t ts htakes hrest ih =>
    cases h' with
    | nil => cases hunits
    | @cons _ _ _ _ t' ts' htakes' hrest' =>
      obtain ⟨hunit, hunits⟩ : t'.unit = t.unit ∧ ts'.map (·.unit) = ts.map (·.unit) :=
        List.cons_eq_cons.mp hunits
      obtain ⟨ht, hts⟩ := List.forall_mem_cons.mp hts
      obtain ⟨hnew, hnd⟩ := List.nodup_cons.mp hnd
      obtain ⟨hholds', hholds⟩ := List.forall_mem_cons.mp hholds
      have hrepeat : t.outcome.passed = true → t'.outcome.passed = true ∧ t'.commands = [] := by
        intro hpassed
        have hready := ready_mono hdone (htakes.isReady_of_passed hpassed)
        rw [hunit, hready] at htakes'
        exact htakes'.of_holdsAt (hholds' hpassed)
      have hlabel : t.outcome.label = t'.outcome.label := by
        rw [htakes.label_eq, htakes'.label_eq, hunit]
      refine .cons ⟨hunit, hrepeat⟩ (ih hrest' hts hnd hunits ?_ fun w hw hpassed => ?_)
      · exact List.rel_append hdone (.cons ⟨hlabel, fun hpassed => (hrepeat hpassed).1⟩ .nil)
      · refine htakes'.holdsAt_other hhost (hunit ▸ ht) (hts w hw) ?_ (hholds w hw hpassed)
        exact fun heq => hnew (List.mem_map.mpr ⟨w, hw, (heq.symm.trans hunit)⟩)

end Course

theorem Report.fail_eq_zero {os : List Outcome} :
    (Report.ofOutcomes os).fail = 0 ↔ ∀ o ∈ os, o.passed = true := by
  simp [Report.ofOutcomes]

/-- On a machine that is steady under units that can be run in their order, whatever passed in a run
in config mode passes in the next one without being configured. After a run in which everything
passed, the next one configures nothing, and everything passes again. -/
theorem exists_repeating_turns (host : Host σ) (machine : String) (us : List ConfigUnit)
    (hus : checkUnits machine us = .ok ()) (hhost : host.IsSteady us) (s : σ) :
    ∃ ts s' ts' s'', IsTranscript host us s ts s' ∧ IsTranscript host us s' ts' s'' ∧
      List.Forall₂ Turn.IsRepeat ts ts' ∧
      (((run .config host us).run s).1.fail = 0 →
        ((run .config host.transcribed us).run (s', [])).2.2.filterMap Exchange.command? = [] ∧
          ((run .config host us).run s').1.fail = 0 ∧
          ((run .config host us).run s').1.pass = us.length) := by
  have hnd : us.Nodup := (checkUnits_eq_ok.mp hus).nodup_labels.1.of_map
  obtain ⟨ts, s', hts, hcourse⟩ := exists_transcript host us s
  obtain ⟨ts', s'', hts', hcourse'⟩ := exists_transcript host us s'
  have hmem : ∀ t ∈ ts, t.unit ∈ us := fun t ht => hts.map_unit ▸ List.mem_map_of_mem ht
  have hndts : (ts.map (·.unit)).Nodup := hts.map_unit ▸ hnd
  have hrepeats := hcourse.repeats hcourse' hhost hmem hndts
    (hts'.map_unit.trans hts.map_unit.symm) .nil (hcourse.holdsAt hhost hmem hndts)
  refine ⟨ts, s', ts', s'', hts, hts', hrepeats, fun hfail => ?_⟩
  rw [hts.run_eq, Report.fail_eq_zero, List.forall_mem_map] at hfail
  have hquiet : ∀ t' ∈ ts', t'.outcome.passed = true ∧ t'.commands = [] := by
    intro t' ht'
    obtain ⟨t, ht, -, hrepeat⟩ := exists_of_mem_right hrepeats ht'
    exact hrepeat (hfail t ht)
  have hfail' : (Report.ofOutcomes (ts'.map (·.outcome))).fail = 0 :=
    Report.fail_eq_zero.mpr (List.forall_mem_map.mpr fun t' ht' => (hquiet t' ht').1)
  refine ⟨?_, ?_, ?_⟩
  · rw [hts'.transcribed_eq, List.filterMap_eq_nil_iff]
    intro x hx
    obtain ⟨t', ht', hx⟩ := List.mem_flatMap.mp hx
    exact List.filterMap_eq_nil_iff.mp (hquiet t' ht').2 x hx
  · rw [hts'.run_eq]
    exact hfail'
  · have hcount := Report.pass_add_fail (ts'.map (·.outcome))
    rw [hfail', List.length_map, ← List.length_map (f := (·.unit)), hts'.map_unit] at hcount
    rw [hts'.run_eq]
    exact hcount

theorem holdsAt_panelHost {v : ConfigUnit} (hv : v ∈ panelUnits) {on : List String} :
    HoldsAt panelHost v on ↔ v.audit ∈ on := by
  have hv : v.polarity = .passOnEqual ∧ v.expected = "on" := by
    revert v
    decide
  simp [HoldsAt, passes, hv, panelHost, Polarity.passes, StateT.run]

/-- A switch that is turned on leaves the others alone. -/
theorem isSteady_panelHost : panelHost.IsSteady panelUnits where
  state_audit _ _ _ := rfl
  holdsAt_configure _ _ _ hv _ _ _ _ hs :=
    (holdsAt_panelHost hv).mpr (List.mem_cons_of_mem _ ((holdsAt_panelHost hv).mp hs))

theorem exists_repeating_turns_panel :
    checkUnits "web" panelUnits = .ok () ∧ panelHost.IsSteady panelUnits ∧
      ∃ ts s' ts' s'', IsTranscript panelHost panelUnits ["fuse"] ts s' ∧
        IsTranscript panelHost panelUnits s' ts' s'' ∧
        List.Forall₂ Turn.IsRepeat ts ts' ∧
        ts.flatMap (·.commands) = ["power", "lamp", "alarm"] ∧
        ((run .config panelHost.transcribed panelUnits).run
          (s', [])).2.2.filterMap Exchange.command? = [] ∧
        ((run .config panelHost panelUnits).run s').1.pass = 4 := by
  have hunits : checkUnits "web" panelUnits = .ok () := by decide
  obtain ⟨ts, s', ts', s'', hts, hts', hrepeats, hquiet⟩ :=
    exists_repeating_turns panelHost "web" panelUnits hunits isSteady_panelHost ["fuse"]
  obtain ⟨hcommands, -, hpass⟩ := hquiet rfl
  refine ⟨hunits, isSteady_panelHost, ts, s', ts', s'', hts, hts', hrepeats, ?_, hcommands, hpass⟩
  have hexchanges := congrArg (fun r => r.2.2.filterMap Exchange.command?) hts.transcribed_eq
  rw [List.filterMap_flatMap] at hexchanges
  exact hexchanges.symm.trans rfl

end NetworkCompiler.ConfigUnit
