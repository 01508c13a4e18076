import NetworkCompiler.ConfigUnit.Script
import NetworkCompiler.Proofs.ConfigUnit.Order
import NetworkCompiler.Proofs.Shell.Trees

/-!
# Scripts of units read as commands

The script of an ordered list of units is read as the commands it was written for
(`readTree?_scriptTree`) : the header, the commands of each unit in turn, and the totals. Labels
are identifiers, so every variable is read as a whole, and the only line that is not one of the
shell's own is the one behind the announcement of a configuration.
-/

namespace NetworkCompiler.ConfigUnit

open Script (Node)
open Shell (Command Reading Reads Variable announces join? nodesOf_append node? readTree?)

/-! ## Legal units -/

theorem isLegal_unit {label : String} (h : isIdentifier label = true) :
    (Variable.unit label).IsLegal := by
  have hname : (Variable.unit label).name.toList = "u_".toList ++ label.toList :=
    String.toList_append
  rw [Variable.IsLegal, hname, List.all_append, all_isIdentifierChar h]
  decide

/-- A unit with a legal label and a precondition that has a legal variable. -/
structure IsLegal (u : ConfigUnit) : Prop where
  label : isUnitLabel u.label = true
  precondition : (Variable.ofPrecondition u.precondition).IsLegal

theorem isLegal_of_isOrdered {seen : List String} {us : List ConfigUnit}
    (hseen : ∀ l ∈ seen, isUnitLabel l = true) (h : IsOrdered seen us) :
    ∀ u ∈ us, u.IsLegal := by
  induction us generalizing seen with
  | nil => simp
  | cons u us ih =>
    obtain ⟨hlabel, hprecondition, -, hus⟩ := h
    refine List.forall_mem_cons.mpr ⟨⟨hlabel, ?_⟩,
      ih (List.forall_mem_cons.mpr ⟨hlabel, hseen⟩) hus⟩
    rcases hprecondition with hproceed | hmem
    · rw [hproceed]
      decide
    · have hunit := hseen _ hmem
      rw [Variable.ofPrecondition, if_neg (ne_proceed_of_isUnitLabel hunit)]
      exact isLegal_unit (isIdentifier_of_isUnitLabel hunit)

/-! ## Commands of a unit -/

theorem announces_say {text : String} {c : Char} (htext : text.toList.head? = some c)
    (hc : 'C' ≠ c) : announces (.say text) = false := by
  obtain ⟨cs, hcs⟩ := List.head?_eq_some_iff.mp htext
  have hnone : Text.Chars.after? "CONFIGURING: ".toList text.toList = none := by
    rw [hcs]
    simp [Text.Chars.after?, hc]
  rw [announces, Text.after?, hnone]
  rfl

section Unit

variable {u : ConfigUnit} (h : u.IsLegal)
include h

theorem resultVariable_eq : u.resultVariable = .unit u.label := by
  rw [resultVariable, Variable.ofPrecondition, if_neg (ne_proceed_of_isUnitLabel h.label)]

theorem isLegal_resultVariable : u.resultVariable.IsLegal := by
  rw [resultVariable_eq h]
  exact isLegal_unit (isIdentifier_of_isUnitLabel h.label)

theorem reads_auditCommands : Reads (Command.nodesOf u.auditCommands) u.auditCommands :=
  .cons trivial rfl (.cons (isLegal_resultVariable h) rfl .nil)

theorem reads_tally : Reads (Command.nodesOf [u.tally]) [u.tally] := by
  have hyes : announces (.say ("PASSED: " ++ u.label)) = false :=
    announces_say (c := 'P') (by simp) (by decide)
  have hno : announces (.say ("FAILED: " ++ u.label ++ ": " ++ u.message)) = false :=
    announces_say (c := 'F') (by simp) (by decide)
  have hpass : Variable.pass.IsLegal := by decide
  have hfail : Variable.fail.IsLegal := by decide
  have hif : Reads u.tally.nodes [u.tally] := by
    refine .ifOne (isLegal_resultVariable h) ?_ ?_
    · exact .cons hpass rfl (.cons trivial hyes .nil)
    · exact .cons hfail rfl
        (.cons (isIdentifier_of_isUnitLabel h.label) rfl (.cons trivial hno .nil))
  exact hif.append .nil

theorem reads_pendingCommands : Reads (Command.nodesOf u.pendingCommands) u.pendingCommands := by
  have hsay : announces (.say ("WOULD RUN: " ++ u.label)) = false :=
    announces_say (c := 'W') (by simp) (by decide)
  rw [pendingCommands]
  split
  · exact .nil
  · next command _ =>
    have hbody : Reads (Command.nodesOf [.say ("WOULD RUN: " ++ u.label), .print command])
        [.say ("WOULD RUN: " ++ u.label), .print command] :=
      .cons trivial hsay (.cons trivial rfl .nil)
    exact (Reads.whenZero (isLegal_resultVariable h) hbody).append .nil

theorem reads_mendCommands : Reads (Command.nodesOf u.mendCommands) u.mendCommands := by
  have hsay : announces (.say ("CONFIGURING: " ++ u.label)) = true := by
    rw [announces, Text.after?, String.toList_append, Text.Chars.after?_append]
    rfl
  rw [mendCommands]
  split
  · exact .nil
  · next command _ =>
    have hplain : (Command.say ("CONFIGURING: " ++ u.label)).IsPlain := trivial
    refine (Reads.whenZero (isLegal_resultVariable h) ?_).append .nil
    rw [nodesOf_append]
    exact (Reads.configure hplain hsay command).append (reads_auditCommands h)

theorem reads_skipCommands : Reads (Command.nodesOf u.skipCommands) u.skipCommands := by
  have hsay : announces (.say ("SKIPPED: " ++ u.label ++ ": " ++ u.precondition ++
      " did not pass")) = false :=
    announces_say (c := 'S') (by simp) (by decide)
  exact .cons ⟨isLegal_resultVariable h, by decide⟩ rfl (.cons trivial hsay .nil)

/-- The section of a unit is read as its commands. -/
theorem reads_unitSection (mode : Mode) : Reads [u.unitSection mode] (u.commands mode) := by
  refine .sect ?_ _ _
  rw [commands, nodesOf_append]
  refine Reads.append ?_ (reads_tally h)
  cases mode with
  | audit => exact reads_auditCommands h
  | dryrun =>
    rw [modeCommands, nodesOf_append]
    exact (reads_auditCommands h).append (reads_pendingCommands h)
  | config =>
    refine (Reads.ifOne h.precondition ?_ (reads_skipCommands h)).append .nil
    rw [nodesOf_append]
    exact (reads_auditCommands h).append (reads_mendCommands h)

end Unit

/-! ## The whole script -/

theorem reads_units {units : List ConfigUnit} (h : ∀ u ∈ units, u.IsLegal) (mode : Mode) :
    Reads (units.map (unitSection mode)) (units.flatMap (commands mode)) := by
  induction units with
  | nil => exact .nil
  | cons u units ih =>
    obtain ⟨hu, hunits⟩ := List.forall_mem_cons.mp h
    exact (reads_unitSection hu mode).append (ih hunits)

theorem reads_header (machine : String) (mode : Mode) :
    Reads [header machine mode] (headerCommands machine mode) := by
  have hpass : Variable.pass.IsLegal := by decide
  have hfail : Variable.fail.IsLegal := by decide
  have hfailed : Variable.failed.IsLegal := by decide
  have hproceed : Variable.proceed.IsLegal := by decide
  refine .sect ((Reads.comment _).append ?_) _ _
  exact .cons trivial rfl (.cons ⟨hpass, by decide⟩ rfl (.cons ⟨hfail, by decide⟩ rfl
    (.cons hfailed rfl (.cons ⟨hproceed, by decide⟩ rfl (.cons trivial rfl .nil)))))

/-- The commands of a whole script. -/
def scriptCommands (machine : String) (units : List ConfigUnit) (mode : Mode) : List Command :=
  headerCommands machine mode ++ (units.flatMap (commands mode) ++ [.summary])

/-- The script of legal units is read as its commands. -/
theorem readTree?_scriptTree {units : List ConfigUnit} (h : ∀ u ∈ units, u.IsLegal)
    (machine : String) (mode : Mode) :
    readTree? (scriptTree machine units mode) = some (scriptCommands machine units mode) := by
  have hsummary : Reads (Command.nodesOf [.summary]) [.summary] := .cons trivial rfl .nil
  have hfooter : Reads [footer] [.summary] := .sect hsummary _ _
  have hall := (reads_header machine mode).append ((reads_units h mode).append hfooter)
  have hreading : node? (scriptTree machine units mode) =
      some (.whole (scriptCommands machine units mode)) := by
    rw [scriptTree, Node.document, node?]
    exact congrArg (Option.map Reading.whole) hall.join
  rw [readTree?, hreading, Option.bind_some, join?, join?, Option.map_some,
    List.append_nil]

end NetworkCompiler.ConfigUnit
