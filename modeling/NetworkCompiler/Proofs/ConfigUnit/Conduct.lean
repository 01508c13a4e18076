import Mathlib.Data.List.Induction
import Mathlib.Data.List.Nodup
import NetworkCompiler.Proofs.ConfigUnit.Order
import NetworkCompiler.Proofs.ConfigUnit.Turns

/-!
# The conduct of a run

What a run in config mode may ask of a machine, for every machine and every list of units that
`checkUnits` accepts. `Turn.IsLawful` is the law of one turn, with the turns in front of it as its
history : a unit is configured once at most, behind an audit of its own that failed, and only if all
units it waits for (`IsChain`) have passed. It follows from the ways to take a turn
(`Takes.isLawful`) once it is known which units may be run : labels are distinct, so a precondition
passed if and only if the one turn with its label did (`ready_eq_true`), and this goes down the
chain (`Course.chain_passed`).
-/

namespace NetworkCompiler.ConfigUnit

variable {σ : Type}

/-! ## What a unit waits for -/

/-- The units that a unit waits for : the one its precondition names, the one that the precondition
of this one names, and so on up to one that may always be run. -/
inductive IsChain (us : List ConfigUnit) : ConfigUnit → List ConfigUnit → Prop where
  | proceed {u : ConfigUnit} : u.precondition = proceed → IsChain us u []
  | behind {u v : ConfigUnit} {vs : List ConfigUnit} :
      v ∈ us → v.label = u.precondition → IsChain us v vs → IsChain us u (v :: vs)

/-- Preconditions lead to the front of the list, so every unit has its chain. -/
theorem IsSupplied.exists_isChain {us vs : List ConfigUnit} (h : IsSupplied [] us)
    (hvs : vs <+: us) : ∀ u ∈ vs, ∃ ws, IsChain us u ws := by
  induction vs using List.reverseRecOn with
  | nil => simp
  | append_singleton vs v ih =>
    have hvs' : vs <+: us := (List.prefix_append _ _).trans hvs
    intro u hu
    rcases List.mem_append.mp hu with hu | hu
    · exact ih hvs' u hu
    · obtain rfl := List.mem_singleton.mp hu
      obtain ⟨rest, rfl⟩ := hvs
      rw [List.append_assoc, List.singleton_append] at h
      rcases h.precondition with hp | hp | ⟨w, hw, hlabel⟩
      · exact ⟨[], .proceed hp⟩
      · cases hp
      · obtain ⟨ws, hws⟩ := ih hvs' w hw
        exact ⟨w :: ws, .behind (hvs'.subset hw) hlabel hws⟩

/-- Whether a unit may be run behind other turns. -/
def IsCleared (before : List Turn) (u : ConfigUnit) : Prop :=
  u.precondition = proceed ∨
    ∃ w ∈ before, w.unit.label = u.precondition ∧ w.outcome.passed = true

theorem find?_reverse_eq_some {done : List Outcome} (hnd : (done.map (·.label)).Nodup)
    {label : String} {o : Outcome} :
    (done.reverse.find? fun o => o.label = label) = some o ↔ o ∈ done ∧ o.label = label := by
  constructor
  · intro h
    exact ⟨List.mem_reverse.mp (List.mem_of_find?_eq_some h), by simpa using List.find?_some h⟩
  · rintro ⟨ho, rfl⟩
    cases hfind : done.reverse.find? fun o' => o'.label = o.label with
    | none => simpa using List.find?_eq_none.mp hfind o (List.mem_reverse.mpr ho)
    | some o' =>
      have ho' := List.mem_reverse.mp (List.mem_of_find?_eq_some hfind)
      have hlabel : o'.label = o.label := by simpa using List.find?_some hfind
      rw [List.inj_on_of_nodup_map hnd ho' ho hlabel]

/-- Of distinct labels it does not matter which outcome is the latest. -/
theorem ready_eq_true {done : List Outcome} (hnd : (done.map (·.label)).Nodup) {u : ConfigUnit} :
    ready done u = true ↔
      u.precondition = proceed ∨ ∃ o ∈ done, o.label = u.precondition ∧ o.passed = true := by
  have hlatest : ∀ o? : Option Outcome,
      (o?.map Outcome.passed).getD false = true ↔ ∃ o, o? = some o ∧ o.passed = true := by
    rintro (_ | o) <;> simp
  rw [ready, Bool.or_eq_true, decide_eq_true_iff, hlatest]
  simp only [find?_reverse_eq_some hnd, and_assoc]

/-! ## The law of a turn -/

/-- What a turn may do behind other turns of a run of `us`. -/
structure Turn.IsLawful (us : List ConfigUnit) (before : List Turn) (t : Turn) : Prop where
  label_eq : t.outcome.label = t.unit.label
  /-- Nothing is audited but the unit itself. -/
  own_audit : ∀ command output, .audited command output ∈ t.exchanges → command = t.unit.audit
  /-- The unit is configured once at most. -/
  length_commands : t.commands.length ≤ 1
  configured_iff : t.outcome.configured = true ↔ t.commands ≠ []
  /-- The unit is configured right behind an audit of its own that failed. -/
  behind_failure : ∀ xs command ys, t.exchanges = xs ++ .configured command :: ys →
    t.unit.config = some command ∧
      ∃ xs' output, xs = xs' ++ [.audited t.unit.audit output] ∧ t.unit.passes output = false
  /-- A unit is asked for anything only if all the units it waits for have passed. -/
  chain_passed : t.exchanges ≠ [] → ∀ vs, IsChain us t.unit vs →
    ∀ v ∈ vs, ∃ w ∈ before, w.unit = v ∧ w.outcome.passed = true
  /-- A unit whose precondition did not pass is left alone. -/
  blocked : ¬IsCleared before t.unit → t.exchanges = []
  /-- A unit that was configured is audited twice. -/
  audited_twice : t.commands ≠ [] → t.outputs.length = 2
  /-- Any other unit is audited once. -/
  audited_once : IsCleared before t.unit → t.commands = [] → t.outputs.length = 1
  /-- The last audit tells whether the unit passed. -/
  passed_iff : t.outcome.passed = true ↔
    ∃ output, t.outputs.getLast? = some output ∧ t.unit.passes output = true

namespace Takes

variable {host : Host σ} {u : ConfigUnit} {isReady : Bool} {s s' : σ} {xs : List Exchange}
  {o : Outcome}

theorem isReady_of_exchanges (h : Takes host u isReady s xs o s') (hxs : xs ≠ []) :
    isReady = true := by
  cases h with
  | blocked => exact absurd rfl hxs
  | _ => rfl

theorem isReady_of_passed (h : Takes host u isReady s xs o s') (ho : o.passed = true) :
    isReady = true := by
  cases h with
  | blocked => simp [Outcome.passed] at ho
  | _ => rfl

theorem own_audit (h : Takes host u isReady s xs o s') {command output : String}
    (hmem : .audited command output ∈ xs) : command = u.audit := by
  cases h with
  | blocked => cases hmem
  | satisfied => simp_all
  | observed => simp_all
  | mended =>
    simp at hmem
    tauto

theorem length_commands (h : Takes host u isReady s xs o s') :
    (xs.filterMap Exchange.command?).length ≤ 1 := by
  cases h <;> simp [List.filterMap_cons]

theorem configured_iff (h : Takes host u isReady s xs o s') :
    o.configured = true ↔ xs.filterMap Exchange.command? ≠ [] := by
  cases h <;> simp [List.filterMap_cons]

theorem behind_failure (h : Takes host u isReady s xs o s') {before after : List Exchange}
    {command : String} (hxs : xs = before ++ .configured command :: after) :
    u.config = some command ∧ ∃ before' output,
      before = before' ++ [.audited u.audit output] ∧ u.passes output = false := by
  cases h with
  | blocked => simp at hxs
  | satisfied => simp [List.cons_eq_append_iff] at hxs
  | observed => simp [List.cons_eq_append_iff] at hxs
  | @mended _ _ _ output _ _ _ hpasses hconfig =>
    obtain ⟨rfl, rfl, -⟩ : before = [.audited u.audit output] ∧ command = _ ∧ after = _ := by
      simpa [List.cons_eq_append_iff] using hxs
    exact ⟨hconfig, [], output, rfl, hpasses⟩

theorem audited_twice (h : Takes host u isReady s xs o s')
    (hcommands : xs.filterMap Exchange.command? ≠ []) :
    (xs.filterMap Exchange.output?).length = 2 := by
  cases h <;> simp_all [List.filterMap_cons]

theorem audited_once (h : Takes host u true s xs o s')
    (hcommands : xs.filterMap Exchange.command? = []) :
    (xs.filterMap Exchange.output?).length = 1 := by
  cases h <;> simp_all [List.filterMap_cons]

theorem passed_iff (h : Takes host u isReady s xs o s') :
    o.passed = true ↔
      ∃ output, (xs.filterMap Exchange.output?).getLast? = some output ∧
        u.passes output = true := by
  cases h with
  | blocked => simp [Outcome.passed]
  | satisfied _ hpasses => simp [Outcome.passed, hpasses]
  | observed _ hpasses _ => simp [Outcome.passed, hpasses]
  | mended => simp [List.filterMap_cons]

end Takes

/-! ## The turns of a course -/

namespace Course

variable {host : Host σ} {s s' : σ} {before after ts : List Turn} {t : Turn}

/-- A unit is ready if and only if a turn in front of it clears it. -/
theorem ready_eq_true (h : Course host [] s (before ++ t :: after) s')
    (hus : IsOrdered [] ((before ++ t :: after).map (·.unit))) :
    ready (before.map (·.outcome)) t.unit = true ↔ IsCleared before t.unit := by
  have hlabel : ∀ w ∈ before, w.outcome.label = w.unit.label := fun w hw =>
    h.label_eq w (List.mem_append_left _ hw)
  have hnd : ((before.map (·.outcome)).map (·.label)).Nodup := by
    have hunits := hus.nodup_labels.1
    rw [List.map_append, List.map_append, List.map_map] at hunits
    rw [List.map_map]
    exact (List.map_congr_left hlabel).symm ▸ hunits.of_append_left
  rw [ConfigUnit.ready_eq_true hnd, IsCleared]
  simp only [List.mem_map, exists_exists_and_eq_and]
  refine or_congr_right (exists_congr fun w => and_congr_right fun hw => ?_)
  rw [hlabel w hw]

/-- Whatever a unit that may be run waits for has passed in front of it. -/
theorem chain_passed (h : Course host [] s ts s') (hus : IsOrdered [] (ts.map (·.unit)))
    {u : ConfigUnit} {vs : List ConfigUnit} (hvs : IsChain (ts.map (·.unit)) u vs)
    (hts : ts = before ++ t :: after) (ht : t.unit = u) (hcleared : IsCleared before u) :
    ∀ v ∈ vs, ∃ w ∈ before, w.unit = v ∧ w.outcome.passed = true := by
  induction hvs generalizing before after t with
  | proceed => simp
  | @behind u v vs hv hlabel _ ih =>
    rcases hcleared with hp | ⟨w, hw, hwlabel, hpassed⟩
    · exact absurd (hlabel.trans hp) (ne_proceed_of_isUnitLabel (hus.isSupplied.isUnitLabel hv))
    · have hmem : w.unit ∈ ts.map (·.unit) :=
        List.mem_map_of_mem (hts ▸ List.mem_append_left _ hw)
      have hwv : w.unit = v :=
        List.inj_on_of_nodup_map hus.nodup_labels.1 hmem hv (hwlabel.trans hlabel.symm)
      obtain ⟨before', after', rfl⟩ := List.append_of_mem hw
      rw [List.append_assoc, List.cons_append] at hts
      subst hts
      obtain ⟨s₁, s₂, htakes⟩ := h.takes
      have hready := (h.ready_eq_true hus).mp (htakes.isReady_of_passed hpassed)
      refine List.forall_mem_cons.mpr ⟨⟨w, hw, hwv, hpassed⟩, fun x hx => ?_⟩
      obtain ⟨y, hy, hyx⟩ := ih rfl hwv (hwv ▸ hready) x hx
      exact ⟨y, List.mem_append_left _ hy, hyx⟩

/-- Every turn of a course is lawful. -/
theorem isLawful (h : Course host [] s ts s') (hus : IsOrdered [] (ts.map (·.unit)))
    (hts : ts = before ++ t :: after) : t.IsLawful (ts.map (·.unit)) before := by
  obtain ⟨s₁, s₂, htakes⟩ := (hts ▸ h).takes
  have hready : ready (before.map (·.outcome)) t.unit = true ↔ IsCleared before t.unit :=
    (hts ▸ h).ready_eq_true (hts ▸ hus)
  rw [List.nil_append] at htakes
  exact {
    label_eq := htakes.label_eq
    own_audit := fun _ _ => htakes.own_audit
    length_commands := htakes.length_commands
    configured_iff := htakes.configured_iff
    behind_failure := fun _ _ _ => htakes.behind_failure
    chain_passed := fun hxs _ hvs =>
      h.chain_passed hus hvs hts rfl (hready.mp (htakes.isReady_of_exchanges hxs))
    blocked := fun hnot => by_contra fun hxs => hnot (hready.mp (htakes.isReady_of_exchanges hxs))
    audited_twice := htakes.audited_twice
    audited_once := fun hcleared => (hready.mpr hcleared ▸ htakes).audited_once
    passed_iff := htakes.passed_iff }

end Course

/-! ## Runs -/

/-- On every machine, a run in config mode of units that can be run in their order has lawful turns
only, and its report counts every unit once and lists those that did not pass. -/
theorem exists_lawful_turns (host : Host σ) (machine : String) (us : List ConfigUnit)
    (hus : checkUnits machine us = .ok ()) (s : σ) :
    ∃ ts s', IsTranscript host us s ts s' ∧
      (∀ before t after, ts = before ++ t :: after → t.IsLawful us before) ∧
      (∀ u ∈ us, ∃ vs, IsChain us u vs) ∧
      ((run .config host us).run s).1.pass + ((run .config host us).run s).1.fail = us.length ∧
      ((run .config host us).run s).1.failed =
        (ts.filter fun t => !t.outcome.passed).map (·.unit.label) := by
  obtain ⟨ts, s', hts, hcourse⟩ := exists_transcript host us s
  have hordered : IsOrdered [] us := checkUnits_eq_ok.mp hus
  obtain rfl := hts.map_unit
  refine ⟨ts, s', hts, fun _ _ _ => hcourse.isLawful hordered, ?_, ?_, ?_⟩
  · exact hordered.isSupplied.exists_isChain List.prefix_rfl
  · rw [hts.run_eq, Report.pass_add_fail, List.length_map, List.length_map]
  · rw [hts.run_eq]
    change ((ts.map (·.outcome)).filter fun o => !o.passed).map (·.label) = _
    rw [List.filter_map, List.map_map]
    exact List.map_congr_left fun t ht => hcourse.label_eq t (List.mem_of_mem_filter ht)

/-- A panel of switches : an audit tells whether a switch is on, and a command turns one on. -/
def panelHost : Host (List String) where
  audit switch := fun on => (if switch ∈ on then "on" else "off", on)
  configure switch := fun on => ((), switch :: on)

/-- Switches that can be turned on, and a fuse that can only be looked at. -/
def panelUnits : List ConfigUnit := [
  new "power" "power" "on" "power",
  (new "lamp" "lamp" "on" "lamp").after "power",
  singleton "fuse" "fuse" "on",
  (new "alarm" "alarm" "on" "alarm").after "fuse"]

theorem exists_lawful_turns_panel :
    checkUnits "web" panelUnits = .ok () ∧
      ∃ ts s', IsTranscript panelHost panelUnits ["lamp"] ts s' ∧
        (∀ before t after, ts = before ++ t :: after → t.IsLawful panelUnits before) ∧
        ts.flatMap (·.exchanges) = [.audited "power" "off", .configured "power",
          .audited "power" "on", .audited "lamp" "on", .audited "fuse" "off"] ∧
        (ts.filter fun t => !t.outcome.passed).map (·.unit.label) = ["fuse", "alarm"] := by
  have hunits : checkUnits "web" panelUnits = .ok () := by decide
  obtain ⟨ts, s', hts, hlawful, -, -, hfailed⟩ :=
    exists_lawful_turns panelHost "web" panelUnits hunits ["lamp"]
  refine ⟨hunits, ts, s', hts, hlawful, ?_, ?_⟩
  · have hexchanges := congrArg (fun r => r.2.2) hts.transcribed_eq
    exact hexchanges.symm.trans rfl
  · exact hfailed.symm.trans (by decide)

end NetworkCompiler.ConfigUnit
