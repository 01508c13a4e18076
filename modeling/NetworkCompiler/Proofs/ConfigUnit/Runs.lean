import Mathlib.Data.List.Basic
import Mathlib.Tactic.Common
import NetworkCompiler.ConfigUnit.Execution

/-!
# Runs of units

A run has one outcome for each unit, in their order (`map_label_run`). `Host.recorded` is a
machine that also keeps the list of the calls it got, so a statement about runs on every machine
says what is called as well. Keeping the calls changes nothing else in a run (`records_run`) :
`Records` holds of every part of a step, and of runs by induction over the units.
-/

namespace NetworkCompiler.ConfigUnit

variable {σ : Type}

/-! ## Recorded calls -/

/-- What a machine can be asked to do. -/
inductive Call where
  | audit (command : String)
  | configure (command : String)
  deriving DecidableEq, Repr

/-- A machine that also keeps the calls it got. -/
def Host.recorded (host : Host σ) : Host (σ × List Call) where
  audit command := fun (s, calls) =>
    let (output, s) := (host.audit command).run s
    (output, s, calls ++ [.audit command])
  configure command := fun (s, calls) =>
    let (_, s) := (host.configure command).run s
    ((), s, calls ++ [.configure command])

/-! ## Outcomes -/

variable (host : Host σ)

theorem run_check (u : ConfigUnit) (s : σ) :
    (check host u).run s =
      (u.passes ((host.audit u.audit).run s).1, ((host.audit u.audit).run s).2) :=
  rfl

@[simp]
theorem passed_ofAudit (label : String) (passes configured : Bool) (pending : Option String) :
    Outcome.passed ⟨label, .ofAudit passes, configured, pending⟩ = passes := by
  cases passes <;> rfl

theorem run_configStep (u : ConfigUnit) (s : σ) :
    (configStep host u).run s =
      let first := (check host u).run s
      if first.1 = true then ({ label := u.label, state := .passed }, first.2)
      else match u.config with
        | none => ({ label := u.label, state := .failed }, first.2)
        | some command =>
          let again := (check host u).run ((host.configure command).run first.2).2
          (⟨u.label, .ofAudit again.1, true, none⟩, again.2) := by
  rw [configStep, StateT.run_bind]
  change StateT.run (if ((check host u).run s).1 = true then _ else _) ((check host u).run s).2 = _
  dsimp only
  split
  · rfl
  · cases u.config <;> rfl

/-- A unit that passes is left alone. -/
theorem run_configStep_of_passes {u : ConfigUnit} {s : σ}
    (h : ((check host u).run s).1 = true) :
    (configStep host u).run s =
      ({ label := u.label, state := .passed }, ((check host u).run s).2) := by
  rw [run_configStep]
  exact if_pos h

/-- A unit that fails and cannot be configured has failed. -/
theorem run_configStep_of_none {u : ConfigUnit} {s : σ}
    (h : ((check host u).run s).1 = false) (hconfig : u.config = none) :
    (configStep host u).run s =
      ({ label := u.label, state := .failed }, ((check host u).run s).2) := by
  rw [run_configStep, hconfig]
  exact if_neg (by simp [h])

/-- A unit that fails is configured and audited again. -/
theorem run_configStep_of_some {u : ConfigUnit} {s : σ} {command : String}
    (h : ((check host u).run s).1 = false) (hconfig : u.config = some command) :
    (configStep host u).run s =
      let again := (check host u).run
        ((host.configure command).run ((check host u).run s).2).2
      (⟨u.label, .ofAudit again.1, true, none⟩, again.2) := by
  rw [run_configStep, hconfig]
  exact if_neg (by simp [h])

theorem label_configStep (u : ConfigUnit) (s : σ) :
    ((configStep host u).run s).1.label = u.label := by
  cases h : ((check host u).run s).1 with
  | true => rw [run_configStep_of_passes host h]
  | false =>
    cases hconfig : u.config with
    | none => rw [run_configStep_of_none host h hconfig]
    | some command => rw [run_configStep_of_some host h hconfig]

theorem label_step (mode : Mode) (done : List Outcome) (u : ConfigUnit) (s : σ) :
    ((step mode host done u).run s).1.label = u.label := by
  cases mode with
  | audit => rfl
  | dryrun => rfl
  | config =>
    rw [step]
    split
    · exact label_configStep host u s
    · rfl

theorem run_runFrom_cons (mode : Mode) (done : List Outcome) (u : ConfigUnit)
    (us : List ConfigUnit) (s : σ) :
    (runFrom mode host done (u :: us)).run s =
      (runFrom mode host (done ++ [((step mode host done u).run s).1]) us).run
        ((step mode host done u).run s).2 :=
  rfl

theorem map_label_runFrom (mode : Mode) (done : List Outcome) (us : List ConfigUnit) (s : σ) :
    ((runFrom mode host done us).run s).1.map (·.label) =
      done.map (·.label) ++ us.map (·.label) := by
  induction us generalizing done s with
  | nil =>
    rw [List.map_nil, List.append_nil]
    rfl
  | cons u us ih =>
    rw [run_runFrom_cons, ih, List.map_append, List.map_singleton, label_step, List.append_assoc]
    rfl

/-- A report has one outcome for each unit, in their order. -/
theorem map_label_run (mode : Mode) (us : List ConfigUnit) (s : σ) :
    ((run mode host us).run s).1.outcomes.map (·.label) = us.map (·.label) :=
  map_label_runFrom host mode [] us s

theorem Report.pass_add_fail (os : List Outcome) :
    (Report.ofOutcomes os).pass + (Report.ofOutcomes os).fail = os.length :=
  (List.length_eq_length_filter_add Outcome.passed).symm

/-- A report counts every unit once. -/
theorem pass_add_fail_run (mode : Mode) (us : List ConfigUnit) (s : σ) :
    ((run mode host us).run s).1.pass + ((run mode host us).run s).1.fail = us.length := by
  have hlength := congrArg List.length (map_label_run host mode us s)
  rw [List.length_map, List.length_map] at hlength
  exact (Report.pass_add_fail _).trans hlength

/-- Only units of the list are said to have failed. -/
theorem mem_failed_run {mode : Mode} {us : List ConfigUnit} {s : σ} {label : String}
    (h : label ∈ ((run mode host us).run s).1.failed) : label ∈ us.map (·.label) := by
  obtain ⟨o, ho, rfl⟩ := List.mem_map.mp h
  rw [← map_label_run host mode us s]
  exact List.mem_map_of_mem (List.mem_of_mem_filter ho)

/-! ## Recorded runs -/

variable {host}

/-- Keeping the calls changes nothing else : `x` does what `y` does, and may add to the calls. -/
def Records {α : Type} (x : StateM (σ × List Call) α) (y : StateM σ α) : Prop :=
  ∀ s calls, ∃ more, x.run (s, calls) = ((y.run s).1, (y.run s).2, calls ++ more)

namespace Records

variable {α β : Type}

theorem pure (a : α) : Records (Pure.pure a : StateM (σ × List Call) α) (Pure.pure a) :=
  fun _ calls => ⟨[], by rw [List.append_nil]; rfl⟩

theorem bind {x : StateM (σ × List Call) α} {y : StateM σ α} (h : Records x y)
    {f : α → StateM (σ × List Call) β} {g : α → StateM σ β} (hfg : ∀ a, Records (f a) (g a)) :
    Records (x >>= f) (y >>= g) := by
  intro s calls
  obtain ⟨more, hx⟩ := h s calls
  obtain ⟨more', hf⟩ := hfg (y.run s).1 (y.run s).2 (calls ++ more)
  refine ⟨more ++ more', ?_⟩
  rw [StateT.run_bind, StateT.run_bind, hx, ← List.append_assoc]
  exact hf

theorem ite {c : Bool} {x x' : StateM (σ × List Call) α} {y y' : StateM σ α}
    (h : Records x y) (h' : Records x' y') :
    Records (if c then x else x') (if c then y else y') := by
  cases c
  · exact h'
  · exact h

end Records

theorem records_audit (command : String) :
    Records (host.recorded.audit command) (host.audit command) :=
  fun _ _ => ⟨[.audit command], rfl⟩

theorem records_configure (command : String) :
    Records (host.recorded.configure command) (host.configure command) :=
  fun _ _ => ⟨[.configure command], rfl⟩

theorem records_check (u : ConfigUnit) : Records (check host.recorded u) (check host u) :=
  (records_audit u.audit).bind fun _ => .pure _

theorem records_configStep (u : ConfigUnit) :
    Records (configStep host.recorded u) (configStep host u) := by
  refine (records_check u).bind fun passes => Records.ite (.pure _) ?_
  cases u.config with
  | none => exact .pure _
  | some command => exact (records_configure command).bind fun _ =>
      (records_check u).bind fun _ => .pure _

theorem records_step (mode : Mode) (done : List Outcome) (u : ConfigUnit) :
    Records (step mode host.recorded done u) (step mode host done u) := by
  cases mode with
  | audit => exact (records_check u).bind fun _ => .pure _
  | dryrun => exact (records_check u).bind fun _ => .pure _
  | config => exact Records.ite (records_configStep u) (.pure _)

theorem records_runFrom (mode : Mode) (done : List Outcome) (us : List ConfigUnit) :
    Records (runFrom mode host.recorded done us) (runFrom mode host done us) := by
  induction us generalizing done with
  | nil => exact .pure done
  | cons u us ih => exact (records_step mode done u).bind fun o => ih (done ++ [o])

/-- A run on a machine that keeps its calls is the run on the machine. -/
theorem records_run (mode : Mode) (us : List ConfigUnit) :
    Records (run mode host.recorded us) (run mode host us) :=
  (records_runFrom mode [] us).bind fun _ => .pure _

end NetworkCompiler.ConfigUnit
