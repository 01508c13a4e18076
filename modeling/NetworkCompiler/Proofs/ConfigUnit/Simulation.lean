import NetworkCompiler.Proofs.ConfigUnit.Runs
import NetworkCompiler.Proofs.ConfigUnit.ScriptReading
import NetworkCompiler.Proofs.Shell.Execution

/-!
# Scripts do what runs do

Running the script of a list of units on a machine calls the machine exactly as `run` does, and
ends with the results that `run` reports. The invariant is `Agrees` : the variables of the script
hold the totals of the outcomes so far, and each unit's variable tells whether it passed.

`Settles` says what one unit does to a script : the machine is left in a certain state, the unit's
variable holds its result, and no other variable is touched. It is shown for each part of a unit,
and `settles_modeCommands` puts the parts together as `step` does. Then the result is counted
(`agrees_tally`), so a unit keeps the invariant (`agrees_commands`), and by induction over the
units `agrees_units` follows every run.
-/

namespace NetworkCompiler.ConfigUnit

open Shell (Command Memory Variable exec execAll execAll_append holds numeral readTree? totals)

/-- The digit that a result is kept as. -/
def digitOf (b : Bool) : String :=
  if b then "1" else "0"

@[simp] theorem digitOf_eq_one (b : Bool) : digitOf b = "1" ↔ b = true := by
  cases b <;> decide

@[simp] theorem digitOf_eq_zero (b : Bool) : digitOf b = "0" ↔ b = false := by
  cases b <;> decide

theorem holds_eq_passes (u : ConfigUnit) (output : String) :
    holds u.polarity output u.expected = u.passes output := by
  unfold holds ConfigUnit.passes Polarity.passes
  cases u.polarity <;> rfl

/-! ## One unit -/

/-- What a unit does to a script : its variable tells whether it passed, the machine is in the
state `s`, and no other variable is touched. -/
structure Settles {σ : Type} (u : ConfigUnit) (m m' : Memory σ) (passes : Bool) (s : σ) :
    Prop where
  result : m'.vars u.resultVariable = digitOf passes
  frame : ∀ v, v ≠ u.resultVariable → m'.vars v = m.vars v
  host : m'.host = s

section Parts

variable {σ : Type} (host : Host σ) (machine : String) {u : ConfigUnit} {m m' : Memory σ}

/-- An audit settles a unit, whatever its variable held before. -/
theorem settles_auditCommands (hframe : ∀ v, v ≠ u.resultVariable → m'.vars v = m.vars v) :
    Settles u m (execAll host machine u.auditCommands m')
      ((check host u).run m'.host).1 ((check host u).run m'.host).2 where
  result := by
    rw [run_check, ← holds_eq_passes]
    exact Memory.vars_set_self _ _ _
  frame v hv := (Memory.vars_set_of_ne _ _ hv).trans (hframe v hv)
  host := rfl

variable {passes : Bool} {s : σ}

/-- What a dry run says changes nothing. -/
theorem settles_pendingCommands (h : Settles u m m' passes s) :
    Settles u m (execAll host machine u.pendingCommands m') passes s := by
  rw [pendingCommands]
  split
  · exact h
  · rw [execAll, execAll, exec]
    split
    · exact ⟨h.result, h.frame, h.host⟩
    · exact h

/-- A unit that passed is not mended. -/
theorem settles_mendCommands_of_passes (h : Settles u m m' true s) :
    Settles u m (execAll host machine u.mendCommands m') true s := by
  have hone : m'.vars u.resultVariable ≠ "0" := by simp [h.result]
  rw [mendCommands]
  split
  · exact h
  · rw [execAll, execAll, exec, if_neg hone]
    exact h

/-- A unit that failed and cannot be configured stays as it is. -/
theorem settles_mendCommands_of_none (h : Settles u m m' false s) (hconfig : u.config = none) :
    Settles u m (execAll host machine u.mendCommands m') false s := by
  rw [mendCommands, hconfig]
  exact h

/-- A unit that failed is configured, and another audit settles it. -/
theorem settles_mendCommands_of_some (h : Settles u m m' false s) {command : String}
    (hconfig : u.config = some command) :
    let again := (check host u).run ((host.configure command).run s).2
    Settles u m (execAll host machine u.mendCommands m') again.1 again.2 := by
  have hzero : m'.vars u.resultVariable = "0" := by simp [h.result]
  rw [mendCommands, hconfig]
  dsimp only
  rw [execAll, execAll, exec, if_pos hzero, execAll_append, ← h.host]
  exact settles_auditCommands host machine h.frame

theorem settles_skipCommands :
    Settles u m (execAll host machine u.skipCommands m) false m.host where
  result := Memory.vars_set_self _ _ _
  frame _ hv := Memory.vars_set_of_ne _ _ hv
  host := rfl

/-! ### The result of a unit -/

theorem settles_configStep (hframe : ∀ v, v ≠ u.resultVariable → m'.vars v = m.vars v) :
    Settles u m (execAll host machine (u.auditCommands ++ u.mendCommands) m')
      ((configStep host u).run m'.host).1.passed ((configStep host u).run m'.host).2 := by
  have haudit := settles_auditCommands host machine hframe
  rw [execAll_append]
  cases h : ((check host u).run m'.host).1 with
  | true =>
    rw [h] at haudit
    rw [run_configStep_of_passes host h]
    exact settles_mendCommands_of_passes host machine haudit
  | false =>
    rw [h] at haudit
    cases hconfig : u.config with
    | none =>
      rw [run_configStep_of_none host h hconfig]
      exact settles_mendCommands_of_none host machine haudit hconfig
    | some command =>
      rw [run_configStep_of_some host h hconfig]
      dsimp only
      rw [passed_ofAudit]
      exact settles_mendCommands_of_some host machine haudit hconfig

/-- What a script does with a unit is what a step of a run does. -/
theorem settles_modeCommands (mode : Mode) {done : List Outcome}
    (hready : m.vars (.ofPrecondition u.precondition) = "1" ↔ ready done u = true) :
    Settles u m (execAll host machine (u.modeCommands mode) m)
      ((step mode host done u).run m.host).1.passed ((step mode host done u).run m.host).2 := by
  have haudit := settles_auditCommands host machine (u := u) (m := m) fun _ _ => rfl
  cases mode with
  | audit =>
    have hpassed : ((step .audit host done u).run m.host).1.passed =
        ((check host u).run m.host).1 :=
      passed_ofAudit _ _ _ _
    rw [hpassed]
    exact haudit
  | dryrun =>
    have hpassed : ((step .dryrun host done u).run m.host).1.passed =
        ((check host u).run m.host).1 :=
      passed_ofAudit _ _ _ _
    rw [hpassed, modeCommands, execAll_append]
    exact settles_pendingCommands host machine haudit
  | config =>
    rw [modeCommands, execAll, execAll, exec, step]
    by_cases h : ready done u = true
    · rw [if_pos (hready.mpr h), if_pos h]
      exact settles_configStep host machine fun _ _ => rfl
    · rw [if_neg (mt hready.mp h), if_neg h]
      exact settles_skipCommands host machine

end Parts

/-! ## Counting -/

/-- The variables of a script hold the totals of the outcomes so far, and each unit's result. -/
structure Agrees {σ : Type} (done : List Outcome) (m : Memory σ) : Prop where
  pass : m.vars .pass = toString (Report.ofOutcomes done).pass
  fail : m.vars .fail = toString (Report.ofOutcomes done).fail
  failed : m.vars .failed =
    String.join ((Report.ofOutcomes done).failed.map fun label => " " ++ label)
  proceed : m.vars .proceed = "1"
  results : ∀ o ∈ done, m.vars (.unit o.label) = digitOf o.passed

section Counting

variable {σ : Type} (host : Host σ) (machine : String) {u : ConfigUnit} {m : Memory σ}
  {done : List Outcome}

/-- The totals that a script prints are those of the report. -/
theorem Agrees.totals_eq (h : Agrees done m) :
    totals m = (Report.ofOutcomes done).summaryLine := by
  rw [totals, h.pass, h.fail, h.failed]
  rfl

/-- The variable of a label tells whether the unit of the label passed. -/
theorem Agrees.unit_eq_one (h : Agrees done m) {label : String}
    (hlabel : label ∈ done.map (·.label)) :
    m.vars (.unit label) = "1" ↔ ∃ o ∈ done, o.label = label ∧ o.state = .passed := by
  constructor
  · intro hone
    obtain ⟨o, ho, rfl⟩ := List.mem_map.mp hlabel
    rw [h.results o ho, digitOf_eq_one] at hone
    exact ⟨o, ho, rfl, of_decide_eq_true hone⟩
  · rintro ⟨o, ho, rfl, hpassed⟩
    rw [h.results o ho, digitOf_eq_one]
    exact decide_eq_true hpassed

theorem ofOutcomes_append (o : Outcome) :
    Report.ofOutcomes (done ++ [o]) =
      if o.passed then
        { Report.ofOutcomes done with
          pass := (Report.ofOutcomes done).pass + 1, outcomes := done ++ [o] }
      else
        { Report.ofOutcomes done with
          fail := (Report.ofOutcomes done).fail + 1
          failed := (Report.ofOutcomes done).failed ++ [o.label], outcomes := done ++ [o] } := by
  cases h : o.passed <;> simp [Report.ofOutcomes, h]

/-- A precondition passed if its variable says so. -/
theorem Agrees.ready_iff (h : Agrees done m)
    (hprecondition : u.precondition = NetworkCompiler.proceed ∨
      u.precondition ∈ done.map (·.label)) :
    m.vars (.ofPrecondition u.precondition) = "1" ↔ ready done u = true := by
  rw [Variable.ofPrecondition, ready]
  split
  · next hproceed => simp [h.proceed, hproceed]
  · next hproceed =>
    have hmem := hprecondition.resolve_left hproceed
    cases hfind : done.reverse.find? fun o => o.label = u.precondition with
    | none =>
      obtain ⟨o, ho, hlabel⟩ := List.mem_map.mp hmem
      have hne := List.find?_eq_none.mp hfind o (List.mem_reverse.mpr ho)
      exact absurd (decide_eq_true hlabel) hne
    | some o =>
      have hlabel : o.label = u.precondition := by simpa using List.find?_some hfind
      have ho : o ∈ done := List.mem_reverse.mp (List.mem_of_find?_eq_some hfind)
      rw [← hlabel, h.results o ho, digitOf_eq_one]
      simp [hlabel, hproceed]

theorem exec_tally_of_passed (h : m.vars u.resultVariable = "1") :
    exec host machine u.tally m =
      (m.set .pass (toString (numeral (m.vars .pass) + 1))).print ("PASSED: " ++ u.label) := by
  rw [tally, exec, if_pos h]
  rfl

theorem exec_tally_of_failed (h : m.vars u.resultVariable ≠ "1") :
    exec host machine u.tally m =
      ((m.set .fail (toString (numeral (m.vars .fail) + 1))).set .failed
        (m.vars .failed ++ " " ++ u.label)).print
          ("FAILED: " ++ u.label ++ ": " ++ u.message) := by
  rw [tally, exec, if_neg h]
  rfl

/-- Counting leaves the results of units and the machine alone. -/
theorem tally_frame :
    (∀ l, (exec host machine u.tally m).vars (.unit l) = m.vars (.unit l)) ∧
      (exec host machine u.tally m).host = m.host := by
  by_cases h : m.vars u.resultVariable = "1"
  · rw [exec_tally_of_passed host machine h]
    exact ⟨fun l => by simp, rfl⟩
  · rw [exec_tally_of_failed host machine h]
    exact ⟨fun l => by simp, rfl⟩

/-- Counting a unit that is settled keeps the totals right. -/
theorem agrees_tally (h : Agrees done m) (hu : u.IsLegal)
    (hnew : u.label ∉ done.map (·.label)) {m' : Memory σ} {o : Outcome} {s : σ}
    (hsettles : Settles u m m' o.passed s) (hlabel : o.label = u.label) :
    Agrees (done ++ [o]) (exec host machine u.tally m') := by
  obtain ⟨hresult, hframe, -⟩ := hsettles
  have hvar := resultVariable_eq hu
  rw [hvar] at hresult hframe
  have hpass := (hframe .pass (by simp)).trans h.pass
  have hfail := (hframe .fail (by simp)).trans h.fail
  have hfailed := (hframe .failed (by simp)).trans h.failed
  have hproceed := (hframe .proceed (by simp)).trans h.proceed
  have hresults : ∀ o' ∈ done ++ [o],
      (exec host machine u.tally m').vars (.unit o'.label) = digitOf o'.passed := by
    intro o' ho'
    rw [(tally_frame host machine).1]
    rcases List.mem_append.mp ho' with ho' | ho'
    · have hne : o'.label ≠ u.label := fun heq => hnew (heq ▸ List.mem_map_of_mem ho')
      rw [hframe _ (by simpa using hne), h.results o' ho']
    · rw [List.mem_singleton.mp ho', hlabel, hresult]
  cases hpassed : o.passed with
  | true =>
    have hone : m'.vars u.resultVariable = "1" := by simp [hvar, hresult, hpassed]
    rw [exec_tally_of_passed host machine hone] at hresults ⊢
    constructor
    · simp [hpass, ofOutcomes_append, hpassed]
    · simp [hfail, ofOutcomes_append, hpassed]
    · simp [hfailed, ofOutcomes_append, hpassed]
    · simp [hproceed]
    · exact hresults
  | false =>
    have hone : m'.vars u.resultVariable ≠ "1" := by simp [hvar, hresult, hpassed]
    rw [exec_tally_of_failed host machine hone] at hresults ⊢
    constructor
    · simp [hpass, ofOutcomes_append, hpassed]
    · simp [hfail, ofOutcomes_append, hpassed]
    · simp [hfailed, ofOutcomes_append, hpassed, hlabel, String.append_assoc]
    · simp [hproceed]
    · exact hresults

/-- A unit of a script does what a step of a run does, and leaves other results alone. -/
theorem agrees_commands (mode : Mode) (h : Agrees done m) (hu : u.IsLegal)
    (hprecondition : u.precondition = NetworkCompiler.proceed ∨
      u.precondition ∈ done.map (·.label))
    (hnew : u.label ∉ done.map (·.label)) :
    let next := (step mode host done u).run m.host
    let m' := execAll host machine (u.commands mode) m
    Agrees (done ++ [next.1]) m' ∧ m'.host = next.2 ∧
      ∀ l, l ≠ u.label → m'.vars (.unit l) = m.vars (.unit l) := by
  intro next m'
  have hsettles : Settles u m (execAll host machine (u.modeCommands mode) m) next.1.passed next.2 :=
    settles_modeCommands host machine mode (h.ready_iff hprecondition)
  have hm' : m' = exec host machine u.tally (execAll host machine (u.modeCommands mode) m) :=
    execAll_append host machine _ [u.tally] m
  obtain ⟨hvars, hhost⟩ := tally_frame host machine (u := u)
    (m := execAll host machine (u.modeCommands mode) m)
  rw [hm']
  refine ⟨agrees_tally host machine h hu hnew hsettles (label_step host mode done u m.host),
    hhost.trans hsettles.host, fun l hl => (hvars l).trans (hsettles.frame _ ?_)⟩
  rw [resultVariable_eq hu]
  simpa using hl

end Counting

/-! ## Whole scripts -/

section Scripts

variable {σ : Type} (host : Host σ) (hostname : String)

/-- The units of a script do what a run does. -/
theorem agrees_units (mode : Mode) {seen : List String} {us : List ConfigUnit}
    (hordered : IsOrdered seen us) (hlegal : ∀ u ∈ us, u.IsLegal) {done : List Outcome}
    (hseen : ∀ l, l ∈ seen ↔ l ∈ done.map (·.label)) {m : Memory σ} (h : Agrees done m) :
    let final := (runFrom mode host done us).run m.host
    let m' := execAll host hostname (us.flatMap (commands mode)) m
    Agrees final.1 m' ∧ m'.host = final.2 ∧
      ∀ l, l ∉ us.map (·.label) → m'.vars (.unit l) = m.vars (.unit l) := by
  induction us generalizing seen done m with
  | nil => exact ⟨h, rfl, fun _ _ => rfl⟩
  | cons u us ih =>
    obtain ⟨-, hprecondition, hnew, hus⟩ := hordered
    obtain ⟨hu, hlegal⟩ := List.forall_mem_cons.mp hlegal
    rw [hseen] at hprecondition hnew
    obtain ⟨hnext, hhost, hframe⟩ :=
      agrees_commands host hostname mode h hu hprecondition hnew
    have hseen' : ∀ l, l ∈ u.label :: seen ↔
        l ∈ (done ++ [((step mode host done u).run m.host).1]).map (·.label) := by
      intro l
      rw [List.mem_cons, hseen, List.map_append, List.map_singleton, List.mem_append,
        List.mem_singleton, label_step, or_comm]
    obtain ⟨hfinal, hhost', hframe'⟩ := ih hus hlegal hseen' hnext
    rw [run_runFrom_cons, List.flatMap_cons, execAll_append, ← hhost]
    refine ⟨hfinal, hhost', fun l hl => ?_⟩
    rw [List.map_cons, List.mem_cons, not_or] at hl
    exact (hframe' l hl.2).trans (hframe l hl.1)

/-- The header sets the counters, whatever was there before. -/
theorem agrees_headerCommands (machine : String) (mode : Mode) (m : Memory σ) :
    Agrees [] (execAll host hostname (headerCommands machine mode) m) where
  pass := rfl
  fail := rfl
  failed := rfl
  proceed := rfl
  results := nofun

/-- A script of units counts what a run reports, and prints it at its end. -/
theorem execAll_scriptCommands (machine : String) {units : List ConfigUnit} (mode : Mode)
    (hordered : IsOrdered [] units) (start : Memory σ) :
    let ran := (run mode host units).run start.host
    ∃ counted, execAll host hostname (scriptCommands machine units mode) start =
        counted.print ran.1.summaryLine ∧
      Agrees ran.1.outcomes counted ∧ counted.host = ran.2 ∧
      ∀ l, l ∉ units.map (·.label) → counted.vars (.unit l) = start.vars (.unit l) := by
  intro ran
  let begun := execAll host hostname (headerCommands machine mode) start
  let counted := execAll host hostname (units.flatMap (commands mode)) begun
  have hbegun : Agrees [] begun := agrees_headerCommands host hostname machine mode start
  have hlegal := isLegal_of_isOrdered (by simp) hordered
  -- The header leaves the machine and the results of units as they were.
  have hunits := agrees_units host hostname mode hordered hlegal (by simp) hbegun
  have hagrees : Agrees ran.1.outcomes counted := hunits.1
  have htotals : totals counted = ran.1.summaryLine := hagrees.totals_eq
  refine ⟨counted, ?_, hagrees, hunits.2⟩
  rw [scriptCommands, execAll_append, execAll_append, ← htotals]
  rfl

end Scripts

/-- The script of a legal list of units is read as commands that do what a run of the units does :
they call the machine in the same way, the variable of a unit holds one exactly if the unit passed,
and the last line they print is the summary of the report. A variable that belongs to no unit keeps
what it held before. -/
theorem script_runs_units {σ : Type} (host : Host σ) (hostname : String)
    (start : Memory (σ × List Call)) {machine : String} {units : List ConfigUnit} (mode : Mode)
    (hunits : checkUnits machine units = .ok ()) :
    ∃ tree commands, scriptOf machine units mode = .ok tree ∧ readTree? tree = some commands ∧
      let final := execAll host.recorded hostname commands start
      let ran := (run mode host.recorded units).run start.host
      final.host = ran.2 ∧
        (∀ label, final.vars (.unit label) = "1" ↔
          (∃ o ∈ ran.1.outcomes, o.label = label ∧ o.state = .passed) ∨
            (label ∉ units.map (·.label) ∧ start.vars (.unit label) = "1")) ∧
        final.printed.getLast? = some ran.1.summaryLine := by
  have hordered := checkUnits_eq_ok.mp hunits
  have hlegal := isLegal_of_isOrdered (by simp) hordered
  refine ⟨scriptTree machine units mode, scriptCommands machine units mode, ?_,
    readTree?_scriptTree hlegal machine mode, ?_⟩
  · rw [scriptOf, hunits]
    rfl
  intro final ran
  obtain ⟨counted, hfinal, hagrees, hhost, hframe⟩ :=
    execAll_scriptCommands host.recorded hostname machine mode hordered start
  have hlabels : ran.1.outcomes.map (·.label) = units.map (·.label) :=
    map_label_run host.recorded mode units start.host
  have hfinal : final = counted.print ran.1.summaryLine := hfinal
  rw [hfinal]
  refine ⟨hhost, fun label => ?_, List.getLast?_concat⟩
  rw [Memory.vars_print]
  by_cases hlabel : label ∈ units.map (·.label)
  · rw [hagrees.unit_eq_one (hlabels ▸ hlabel)]
    simp [hlabel, ran]
  · have hnone : ¬∃ o ∈ ran.1.outcomes, o.label = label ∧ o.state = .passed := by
      rintro ⟨o, ho, rfl, -⟩
      exact hlabel (hlabels ▸ List.mem_map_of_mem ho)
    rw [hframe label hlabel, or_iff_right hnone, and_iff_right hlabel]

/-- A machine with a switch : every audit tells how it stands, and every command turns it on. -/
def switchHost : Host Bool where
  audit _ := fun on => (if on then "on" else "off", on)
  configure _ := fun _ => ((), true)

/-- A switch that has to be turned on, and what depends on it. -/
def switchUnits : List ConfigUnit := [
  new "switch" "cat /switch" "on" "echo on > /switch",
  (singleton "lamp" "cat /lamp" "on").after "switch",
  singleton "fuse" "cat /fuse" "off",
  (singleton "alarm" "cat /alarm" "off").after "fuse"]

/-- A shell in which variables were set before. -/
def usedMemory : Memory (Bool × List Call) where
  vars _ := "1"
  output := ""
  hostname := ""
  printed := []
  host := (false, [])

theorem script_runs_units_switch :
    checkUnits "web" switchUnits = .ok () ∧
      ∃ tree commands, scriptOf "web" switchUnits .config = .ok tree ∧
        readTree? tree = some commands ∧
        let final := execAll switchHost.recorded "web" commands usedMemory
        final.host = (true, [.audit "cat /switch", .configure "echo on > /switch",
          .audit "cat /switch", .audit "cat /lamp", .audit "cat /fuse"]) ∧
        final.vars (.unit "lamp") = "1" ∧ final.vars (.unit "alarm") ≠ "1" ∧
        final.printed.getLast? = some "pass=2 fail=2 failed: fuse alarm" := by
  have hunits : checkUnits "web" switchUnits = .ok () := by decide
  obtain ⟨tree, commands, htree, hcommands, hhost, hvars, hlast⟩ :=
    script_runs_units switchHost "web" usedMemory .config hunits
  refine ⟨hunits, tree, commands, htree, hcommands, hhost, ?_, ?_, hlast⟩
  · rw [hvars]
    exact .inl (by decide)
  · rw [ne_eq, hvars]
    decide

end NetworkCompiler.ConfigUnit
