import NetworkCompiler.Proofs.ConfigUnit.Runs

/-!
# Turns of a run

What a run in config mode does with a machine, unit by unit. `Host.transcribed` is a machine that
also keeps what it was asked and what it answered. `Takes` lists the four ways in which a unit can
take its turn : it is blocked, it is satisfied, it is only observed, or it is mended. Every step of
a run is one of these (`exists_takes`), so a run is a course of turns, one for each unit
(`exists_course`), and the transcript of a run is that of its turns, one behind the other
(`exists_transcript`). Whatever is said about runs in config mode is then said about courses.
-/

namespace NetworkCompiler.ConfigUnit

variable {σ : Type}

/-! ## Transcripts -/

/-- What a machine was asked, and what it answered. -/
inductive Exchange where
  | audited (command output : String)
  | configured (command : String)
  deriving DecidableEq, Repr

namespace Exchange

/-- The answer to an audit. -/
@[simp]
def output? : Exchange → Option String
  | audited _ output => some output
  | configured _ => none

/-- The command that was to change something. -/
@[simp]
def command? : Exchange → Option String
  | audited .. => none
  | configured command => some command

end Exchange

/-- A machine that also keeps what it was asked and what it answered. -/
def Host.transcribed (host : Host σ) : Host (σ × List Exchange) where
  audit command := fun (s, log) =>
    let (output, s) := (host.audit command).run s
    (output, s, log ++ [.audited command output])
  configure command := fun (s, log) =>
    let (_, s) := (host.configure command).run s
    ((), s, log ++ [.configured command])

theorem run_audit_transcribed (host : Host σ) (command : String) (s : σ) (log : List Exchange) :
    (host.transcribed.audit command).run (s, log) =
      (((host.audit command).run s).1, ((host.audit command).run s).2,
        log ++ [.audited command ((host.audit command).run s).1]) :=
  rfl

theorem run_configure_transcribed (host : Host σ) (command : String) (s : σ)
    (log : List Exchange) :
    (host.transcribed.configure command).run (s, log) =
      ((), ((host.configure command).run s).2, log ++ [.configured command]) :=
  rfl

/-- The turn of a unit in a run. -/
structure Turn where
  unit : ConfigUnit
  exchanges : List Exchange
  outcome : Outcome
  deriving DecidableEq, Repr

namespace Turn

/-- What the audits of a turn put out. -/
def outputs (t : Turn) : List String :=
  t.exchanges.filterMap Exchange.output?

/-- The commands of a turn that were to change something. -/
def commands (t : Turn) : List String :=
  t.exchanges.filterMap Exchange.command?

end Turn

/-! ## One turn -/

/-- How a unit takes its turn, by whether its precondition passed : from a state of the machine,
with these exchanges, to this outcome and another state. -/
inductive Takes (host : Host σ) (u : ConfigUnit) :
    Bool → σ → List Exchange → Outcome → σ → Prop where
  | blocked (s : σ) : Takes host u false s [] { label := u.label, state := .failed } s
  | satisfied {s s₁ : σ} {output : String} :
      (host.audit u.audit).run s = (output, s₁) → u.passes output = true →
      Takes host u true s [.audited u.audit output] { label := u.label, state := .passed } s₁
  | observed {s s₁ : σ} {output : String} :
      (host.audit u.audit).run s = (output, s₁) → u.passes output = false → u.config = none →
      Takes host u true s [.audited u.audit output] { label := u.label, state := .failed } s₁
  | mended {s s₁ s₂ : σ} {output again command : String} :
      (host.audit u.audit).run s = (output, s₁) → u.passes output = false →
      u.config = some command →
      (host.audit u.audit).run ((host.configure command).run s₁).2 = (again, s₂) →
      Takes host u true s
        [.audited u.audit output, .configured command, .audited u.audit again]
        ⟨u.label, .ofAudit (u.passes again), true, none⟩ s₂

theorem Takes.label_eq {host : Host σ} {u : ConfigUnit} {isReady : Bool} {s s' : σ}
    {xs : List Exchange} {o : Outcome} (h : Takes host u isReady s xs o s') :
    o.label = u.label := by
  cases h <;> rfl

section Steps

variable (host : Host σ)

/-- The step of a unit that may be run, on the machine and on the one that keeps a transcript. -/
theorem exists_takes_configStep (u : ConfigUnit) (s : σ) (log : List Exchange) :
    ∃ xs o s', Takes host u true s xs o s' ∧ (configStep host u).run s = (o, s') ∧
      (configStep host.transcribed u).run (s, log) = (o, s', log ++ xs) := by
  rcases haudit : (host.audit u.audit).run s with ⟨output, s₁⟩
  have hcheck : (check host u).run s = (u.passes output, s₁) := by rw [run_check, haudit]
  have hcheck' : (check host.transcribed u).run (s, log) =
      (u.passes output, s₁, log ++ [.audited u.audit output]) := by
    rw [run_check, run_audit_transcribed, haudit]
  cases hpasses : u.passes output with
  | true =>
    rw [hpasses] at hcheck hcheck'
    refine ⟨_, _, _, .satisfied haudit hpasses, ?_, ?_⟩
    · rw [run_configStep_of_passes host (by rw [hcheck]), hcheck]
    · rw [run_configStep_of_passes host.transcribed (by rw [hcheck']), hcheck']
  | false =>
    rw [hpasses] at hcheck hcheck'
    cases hconfig : u.config with
    | none =>
      refine ⟨_, _, _, .observed haudit hpasses hconfig, ?_, ?_⟩
      · rw [run_configStep_of_none host (by rw [hcheck]) hconfig, hcheck]
      · rw [run_configStep_of_none host.transcribed (by rw [hcheck']) hconfig, hcheck']
    | some command =>
      rcases hagain : (host.audit u.audit).run ((host.configure command).run s₁).2 with
        ⟨again, s₂⟩
      refine ⟨_, _, _, .mended haudit hpasses hconfig hagain, ?_, ?_⟩
      · rw [run_configStep_of_some host (by rw [hcheck]) hconfig, hcheck]
        dsimp only
        rw [run_check, hagain]
      · rw [run_configStep_of_some host.transcribed (by rw [hcheck']) hconfig, hcheck']
        dsimp only
        rw [run_configure_transcribed, run_check, run_audit_transcribed, hagain]
        simp

/-- Every step of a run in config mode is a turn. -/
theorem exists_takes (done : List Outcome) (u : ConfigUnit) (s : σ) (log : List Exchange) :
    ∃ xs o s', Takes host u (ready done u) s xs o s' ∧
      (step .config host done u).run s = (o, s') ∧
      (step .config host.transcribed done u).run (s, log) = (o, s', log ++ xs) := by
  simp only [step]
  cases ready done u with
  | true => exact exists_takes_configStep host u s log
  | false => exact ⟨[], _, s, .blocked s, rfl, by rw [List.append_nil]; rfl⟩

end Steps

/-! ## Runs -/

/-- Turns one after the other, behind outcomes that are there already. -/
inductive Course (host : Host σ) : List Outcome → σ → List Turn → σ → Prop where
  | nil (done : List Outcome) (s : σ) : Course host done s [] s
  | cons {done : List Outcome} {s s₁ s₂ : σ} {t : Turn} {ts : List Turn} :
      Takes host t.unit (ready done t.unit) s t.exchanges t.outcome s₁ →
      Course host (done ++ [t.outcome]) s₁ ts s₂ → Course host done s (t :: ts) s₂

/-- Every run in config mode is a course of turns. -/
theorem exists_course (host : Host σ) (done : List Outcome) (us : List ConfigUnit) (s : σ)
    (log : List Exchange) :
    ∃ ts s', ts.map (·.unit) = us ∧ Course host done s ts s' ∧
      (runFrom .config host done us).run s = (done ++ ts.map (·.outcome), s') ∧
      (runFrom .config host.transcribed done us).run (s, log) =
        (done ++ ts.map (·.outcome), s', log ++ ts.flatMap (·.exchanges)) := by
  induction us generalizing done s log with
  | nil =>
    refine ⟨[], s, rfl, .nil done s, ?_, ?_⟩
    · rw [List.map_nil, List.append_nil]
      rfl
    · rw [List.map_nil, List.append_nil, List.flatMap_nil, List.append_nil]
      rfl
  | cons u us ih =>
    obtain ⟨xs, o, s₁, htakes, hstep, hstep'⟩ := exists_takes host done u s log
    obtain ⟨ts, s₂, hunits, hcourse, hrun, hrun'⟩ := ih (done ++ [o]) s₁ (log ++ xs)
    refine ⟨⟨u, xs, o⟩ :: ts, s₂, by rw [List.map_cons, hunits], .cons htakes hcourse, ?_, ?_⟩
    · rw [run_runFrom_cons, hstep, hrun]
      simp
    · rw [run_runFrom_cons, hstep', hrun']
      simp

/-- The turns of a run in config mode from `s` to `s'` : one for each unit, in their order. The
report counts their outcomes, and they are all that the machine was asked. -/
structure IsTranscript (host : Host σ) (us : List ConfigUnit) (s : σ) (ts : List Turn) (s' : σ) :
    Prop where
  map_unit : ts.map (·.unit) = us
  run_eq : (run .config host us).run s = (Report.ofOutcomes (ts.map (·.outcome)), s')
  transcribed_eq : (run .config host.transcribed us).run (s, []) =
    (Report.ofOutcomes (ts.map (·.outcome)), s', ts.flatMap (·.exchanges))

/-- Every run in config mode has its turns. -/
theorem exists_transcript (host : Host σ) (us : List ConfigUnit) (s : σ) :
    ∃ ts s', IsTranscript host us s ts s' ∧ Course host [] s ts s' := by
  obtain ⟨ts, s', hunits, hcourse, hrun, hrun'⟩ := exists_course host [] us s []
  refine ⟨ts, s', ⟨hunits, ?_, ?_⟩, hcourse⟩
  · rw [run, StateT.run_bind, hrun]
    rfl
  · rw [run, StateT.run_bind, hrun']
    rfl

namespace Course

variable {host : Host σ} {done : List Outcome} {s s' : σ} {ts : List Turn}

/-- A turn behind others is taken behind their outcomes. -/
theorem takes {before after : List Turn} {t : Turn}
    (h : Course host done s (before ++ t :: after) s') :
    ∃ s₁ s₂, Takes host t.unit (ready (done ++ before.map (·.outcome)) t.unit) s₁ t.exchanges
      t.outcome s₂ := by
  induction before generalizing done s with
  | nil =>
    cases h with
    | cons htakes _ => exact ⟨_, _, by simpa using htakes⟩
  | cons w before ih =>
    cases h with
    | cons _ hrest => simpa using ih hrest

theorem label_eq (h : Course host done s ts s') : ∀ t ∈ ts, t.outcome.label = t.unit.label := by
  induction h with
  | nil => simp
  | cons htakes _ ih => exact List.forall_mem_cons.mpr ⟨htakes.label_eq, ih⟩

end Course

end NetworkCompiler.ConfigUnit
