import NetworkCompiler.CommandLine.Commands
import NetworkCompiler.Proofs.ConfigUnit.Order
import NetworkCompiler.Proofs.ConfigUnit.Runs
import NetworkCompiler.Proofs.Text.Words

/-!
# Summaries read back

The totals of a run are printed on its last line and read back from everything that was printed.
The line is a line of words (`summaryLine_eq`), cut at the first place that says which units failed
(`cutAtText?_totals`), so it is read back as the totals it was printed for
(`ofLine?_summaryLine`). Behind whole lines it is the last line and is looked at first, so it does
not matter what else was printed (`ofOutput?_run`).
-/

namespace NetworkCompiler

/-! ## Totals -/

namespace RunSummary

open Text (IsWord inLine behindSpaces)

/-- A text is searched for from the first character that it begins with. -/
theorem cutAtText?_append {c : Char} {cs : List Char} (hc : c ∉ cs) (sep rest : List Char) :
    cutAtText? (c :: sep) (cs ++ rest) =
      (cutAtText? (c :: sep) rest).map fun (l, r) => (cs ++ l, r) := by
  induction cs with
  | nil => simp
  | cons d cs ih =>
    rw [List.mem_cons, not_or] at hc
    rw [List.cons_append, cutAtText?, Text.Chars.after?, if_neg hc.1, ih hc.2, Option.map_map]
    rfl

theorem total?_append {n : Nat} (h : n ≤ maxTotal) (start : String) :
    total? start (start ++ toString n) = some n := by
  rw [total?, Text.after?_eq_some.mpr rfl, Option.bind_some, Text.unsigned?_toString h]

/-- The line is cut behind both totals : the space between them stands in front of another word. -/
theorem cutAtText?_totals {pass : String} {fail : Nat} (hpass : ' ' ∉ pass.toList)
    (hfail : ' ' ∉ ("fail=" ++ toString fail).toList) (failed : List String) :
    cutAtText? " failed:".toList
        (inLine (pass :: ("fail=" ++ toString fail) :: "failed:" :: failed)).toList =
      some (pass.toList ++ ' ' :: ("fail=" ++ toString fail).toList,
        (behindSpaces failed).toList) := by
  have hsep : " failed:".toList = ' ' :: "failed:".toList := rfl
  have hskip : ∀ rest, cutAtText? (' ' :: "failed:".toList)
      (' ' :: (("fail=" ++ toString fail).toList ++ rest)) =
        (cutAtText? (' ' :: "failed:".toList) (("fail=" ++ toString fail).toList ++ rest)).map
          fun (l, r) => (' ' :: l, r) := fun rest => by
    rw [String.toList_append]
    rfl
  have hfound : ∀ rest, cutAtText? (' ' :: "failed:".toList) (' ' :: ("failed:".toList ++ rest)) =
      some ([], rest) := fun rest => by
    rw [← List.cons_append, ← hsep]
    rfl
  rw [Text.toList_inLine_cons, List.map_cons, List.map_cons, List.flatMap_cons, List.flatMap_cons,
    List.cons_append, List.cons_append, hsep, cutAtText?_append hpass, hskip,
    cutAtText?_append hfail, hfound, Text.toList_behindSpaces]
  simp

/-- A line that begins like totals is looked at first if it is the last one. -/
theorem ofOutput?_append {s line : String} (hs : Text.EndsLine s) (hline : Text.IsLine line)
    (hreturn : '\r' ∉ line.toList) (hstart : (Text.after? "pass=" line).isSome) :
    ofOutput? (s ++ line ++ "\n") = ofLine? line := by
  have hfind (ls : List String) :
      (line :: ls).find? (fun l => (Text.after? "pass=" l).isSome) = some line :=
    List.find?_cons_of_pos (p := fun l => (Text.after? "pass=" l).isSome) hstart
  rw [ofOutput?, Text.lines_append_line hs hline hreturn, List.reverse_append,
    List.reverse_singleton, List.singleton_append, hfind, Option.bind_some]

end RunSummary

namespace ConfigUnit

open Text (IsWord inLine behindSpaces)

/-! ## Summary lines -/

theorem Report.summaryLine_eq (r : Report) : r.summaryLine = inLine
    (("pass=" ++ toString r.pass) :: ("fail=" ++ toString r.fail) :: "failed:" :: r.failed) := by
  have hfailed : String.join (r.failed.map fun label => " " ++ label) = behindSpaces r.failed := rfl
  rw [Report.summaryLine, hfailed, ← String.toList_inj]
  simp [inLine, Text.behindSpaces_cons, ToString.toString]

section Reports

variable {r : Report} (hfailed : ∀ label ∈ r.failed, IsWord label)
include hfailed

theorem Report.isWord_of_mem_summaryLine :
    ∀ w ∈ ("pass=" ++ toString r.pass) :: ("fail=" ++ toString r.fail) :: "failed:" :: r.failed,
      IsWord w := by
  have htotal : ∀ (start : String) (n : Nat), Text.Chars.IsSolid start.toList →
      IsWord (start ++ toString n) := fun start n hstart =>
    Text.isWord_append hstart (Text.isWord_toString n)
  simp only [List.forall_mem_cons]
  exact ⟨htotal _ _ (by decide), htotal _ _ (by decide), by decide, hfailed⟩

/-- The totals are read back from the line they are printed on. -/
theorem Report.ofLine?_summaryLine (hpass : r.pass ≤ RunSummary.maxTotal)
    (hfail : r.fail ≤ RunSummary.maxTotal) :
    RunSummary.ofLine? r.summaryLine = some ⟨r.pass, r.fail, r.failed⟩ := by
  have hwords := Report.isWord_of_mem_summaryLine hfailed
  simp only [List.forall_mem_cons] at hwords
  obtain ⟨hpassWord, hfailWord, -, -⟩ := hwords
  have hspace : ∀ {w : String}, IsWord w → ' ' ∉ w.toList := fun hw hmem =>
    absurd (hw.2 ' ' hmem) (by decide)
  have hcut := RunSummary.cutAtText?_totals (hspace hpassWord) (hspace hfailWord) r.failed
  rw [← Report.summaryLine_eq] at hcut
  rw [RunSummary.ofLine?, hcut]
  simp only [Option.bind_eq_bind, Option.bind_some, String.ofList_toList, Text.cutAt?,
    String.toList_ofList, Text.Chars.cutAt?_append_cons (hspace hpassWord), Option.map_some,
    RunSummary.total?_append hpass, RunSummary.total?_append hfail, Text.words_behindSpaces hfailed]
  rfl

/-- The totals are read back from the last line, whatever stands in front of it. -/
theorem Report.ofOutput?_summaryLine (hpass : r.pass ≤ RunSummary.maxTotal)
    (hfail : r.fail ≤ RunSummary.maxTotal) {s : String} (hs : Text.EndsLine s) :
    RunSummary.ofOutput? (s ++ r.summaryLine ++ "\n") = some ⟨r.pass, r.fail, r.failed⟩ := by
  have hblank : ∀ c, Text.isBlank c = true → c ≠ ' ' → c ∉ r.summaryLine.toList := by
    rw [Report.summaryLine_eq]
    exact fun c => Text.not_mem_inLine (Report.isWord_of_mem_summaryLine hfailed)
  have hstart : (Text.after? "pass=" r.summaryLine).isSome := by
    rw [Report.summaryLine_eq, inLine, String.append_assoc, Text.after?_eq_some.mpr rfl]
    rfl
  rw [RunSummary.ofOutput?_append hs (hblank _ (by decide) (by decide))
    (hblank _ (by decide) (by decide)) hstart, Report.ofLine?_summaryLine hfailed hpass hfail]

end Reports

/-! ## Runs -/

/-- What a run reports is read back from the line it is printed on, whatever was printed in front of
it, and the output is accepted exactly if no unit failed. -/
theorem ofOutput?_run {σ : Type} (host : Host σ) (mode : Mode) (machine : String)
    {units : List ConfigUnit} (hunits : checkUnits machine units = .ok ())
    (hlength : units.length < 0x100000000) (s : σ) {earlier : String}
    (hearlier : Text.EndsLine earlier) (file : String) :
    let report := ((run mode host units).run s).1
    let output := earlier ++ report.summaryLine ++ "\n"
    RunSummary.ofOutput? output = some ⟨report.pass, report.fail, report.failed⟩ ∧
      (CommandLine.runFault? file output = none ↔ report.fail = 0) := by
  intro report output
  have hfailed : ∀ label ∈ report.failed, IsWord label := by
    intro label hlabel
    obtain ⟨u, hu, rfl⟩ := List.mem_map.mp (mem_failed_run host hlabel)
    exact isWord_of_isUnitLabel ((checkUnits_eq_ok.mp hunits).isSupplied.isUnitLabel hu)
  have htotal : report.pass + report.fail = units.length := pass_add_fail_run host mode units s
  have hmax : RunSummary.maxTotal = 0xffffffff := rfl
  have hread : RunSummary.ofOutput? output = some ⟨report.pass, report.fail, report.failed⟩ :=
    Report.ofOutput?_summaryLine hfailed (by omega) (by omega) hearlier
  refine ⟨hread, ?_⟩
  rw [CommandLine.runFault?, hread]
  simp [Nat.pos_iff_ne_zero]

/-- A machine that says the same to every audit, and that no command changes. -/
def linkHost : Host Unit where
  audit _ := pure "up"
  configure _ := pure ()

/-- A link that is up, and a table that is missing. -/
def routerUnits : List ConfigUnit :=
  [.singleton "link" "cat /sys/class/net/eth0/operstate" "up",
    .singleton "table" "nft list tables" "table inet filter"]

/-- A line that was printed before and looks like totals says nothing. -/
theorem ofOutput?_run_misleading :
    let report := ((run .audit linkHost routerUnits).run ()).1
    let earlier := "pass=2 fail=0 failed:\n"
    checkUnits "router" routerUnits = .ok () ∧ Text.EndsLine earlier ∧
      RunSummary.ofOutput? (earlier ++ report.summaryLine ++ "\n") = some ⟨1, 1, ["table"]⟩ ∧
      CommandLine.runFault? "router.audit.sh" (earlier ++ report.summaryLine ++ "\n") ≠ none := by
  intro report earlier
  have hunits : checkUnits "router" routerUnits = .ok () := by decide
  have hearlier : Text.EndsLine earlier := .inr ⟨"pass=2 fail=0 failed:", by decide⟩
  obtain ⟨hread, hfault⟩ :=
    ofOutput?_run linkHost .audit "router" hunits (by decide) () hearlier "router.audit.sh"
  exact ⟨hunits, hearlier, hread, fun hnone => absurd (hfault.mp hnone) (by decide)⟩

end ConfigUnit

end NetworkCompiler
