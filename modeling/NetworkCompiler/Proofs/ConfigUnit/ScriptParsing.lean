import NetworkCompiler.ConfigUnit.Catalogue
import NetworkCompiler.Network.InterfaceEntries
import NetworkCompiler.Proofs.ConfigUnit.ScriptReading
import NetworkCompiler.Proofs.Network.Names
import NetworkCompiler.Proofs.Script.RoundTrip

/-!
# Scripts of units read back

The sections of a script say which units it is made of. `readsBack_scriptTree_iff` says when they
can be read back from the text of a script : exactly if no line of a unit's section is taken for a
marker, and none loses a carriage return or a blank. The header and the footer have no such lines
(`isVerbatim_header`, `isVerbatim_footer`), but the texts of a unit may have any lines.
-/

namespace NetworkCompiler.ConfigUnit

open Script (Node IsMarked IsVerbatim IsPlain ReadsBack textLines)
open Script.Node (linesAll)
open Shell (Command Variable quote)
open Text (IsLine isLine_append)
open Text.Chars (IsSolid)

/-! ## Markers -/

theorem ofList_pair {k k' v v' : String} (hne : k' ≠ k) (hlt : ¬k' < k) :
    Dictionary.ofList [(k, v), (k', v')] = [(k, v), (k', v')] := by
  simp [Dictionary.ofList, Dictionary.insert, hne, hlt]

theorem attributes_header (machine : String) (mode : Mode) :
    (header machine mode).attributes = [("machine", machine), ("mode", mode.word)] := by
  change Dictionary.ofList [("machine", machine), ("mode", mode.word)] = _
  exact ofList_pair (by decide) (by decide)

theorem attributes_unitSection (mode : Mode) (u : ConfigUnit) :
    (u.unitSection mode).attributes = u.attributes := by
  change Dictionary.ofList u.attributes = u.attributes
  rw [attributes]
  cases u.isSingleton with
  | true => exact ofList_pair (by decide) (by decide)
  | false => rfl

theorem isMarked_header {machine : String} (h : isLabel machine = true) (mode : Mode) :
    IsMarked (header machine mode) where
  kind := rfl
  name := (by decide : headerName.toList ≠ [] ∧ IsSolid headerName.toList)
  keys := by
    rw [attributes_header]
    simp
    decide
  values := by
    rw [attributes_header]
    simp only [List.forall_mem_cons]
    exact ⟨isSolid_of_isLabel h, by cases mode <;> decide, nofun⟩
  sorted := by
    rw [attributes_header]
    exact ofList_pair (by decide) (by decide)

theorem isMarked_footer : IsMarked footer where
  kind := rfl
  name := by decide
  keys := nofun
  values := nofun
  sorted := rfl

theorem isMarked_unitSection {u : ConfigUnit} (h : u.IsLegal) (mode : Mode) :
    IsMarked (u.unitSection mode) where
  kind := rfl
  name := isWord_of_isUnitLabel h.label
  keys := by
    rw [attributes_unitSection, attributes]
    cases u.isSingleton <;> simp <;> decide
  values := by
    have hprecondition : IsSolid u.precondition.toList := by
      have hlegal := h.precondition
      rw [Variable.ofPrecondition] at hlegal
      split at hlegal
      · next hproceed =>
        rw [hproceed]
        decide
      · refine isSolid_of_identifier (List.all_eq_true.mpr fun c hc => ?_)
        refine List.all_eq_true.mp hlegal c ?_
        rw [Variable.name, String.toList_append]
        exact List.mem_append_right _ hc
    have hyes : IsSolid "yes".toList := by decide
    rw [attributes_unitSection, attributes]
    cases u.isSingleton with
    | true => simpa using ⟨hprecondition, hyes⟩
    | false => simpa using hprecondition
  sorted := by
    rw [attributes_unitSection]
    exact attributes_unitSection mode u

/-! ## Header and footer -/

theorem isLine_quote {s : String} (h : IsLine s) : IsLine (quote s) := by
  have hbody : ∀ cs : List Char, '\n' ∉ cs → '\n' ∉ Shell.quoteBody cs := by
    intro cs hcs
    induction cs with
    | nil => exact hcs
    | cons c cs ih =>
      rw [List.mem_cons, not_or] at hcs
      rw [Shell.quoteBody]
      split <;> simp [hcs.1, ih hcs.2]
  rw [IsLine, quote, String.toList_ofList, Shell.quoteChars]
  simpa using hbody _ h

theorem isVerbatim_of_head {l : String} {c d : Char} (hhead : l.toList.head? = some c)
    (hblank : Text.isBlank c = false) (hc : c ≠ '#') (hlast : l.toList.getLast? = some d)
    (hd : d ≠ '\r') : IsVerbatim l where
  plain := Script.isPlain_of_head hhead hblank hc
  ending := by simp [hlast, hd]
  remark := by
    rintro rfl
    exact hc (Option.some.inj hhead).symm

section Header

variable {machine : String} (h : isLabel machine = true) (mode : Mode)
include h

theorem isLine_machine : IsLine machine :=
  (Script.isSpaced_of_isSolid (isSolid_of_isLabel h)).isLine

omit h in
theorem isLine_word : IsLine mode.word := by
  cases mode <;> decide

theorem isLine_title : IsLine (machine ++ ": " ++ mode.word ++ " script") :=
  isLine_append (isLine_append (isLine_append (isLine_machine h) (by decide)) (isLine_word mode))
    (by decide)

theorem isLine_greeting :
    IsLine ("echo " ++ quote (mode.word ++ " " ++ machine ++ " on ") ++ "\"$hostname\"") :=
  isLine_append (isLine_append (by decide) (isLine_quote (isLine_append (isLine_append
    (isLine_append (isLine_word mode) (by decide)) (isLine_machine h)) (by decide)))) (by decide)

/-- A label begins with neither of the marks that a marker has behind the mark of remarks. -/
theorem isPlain_remark (rest : String) : IsPlain ("# " ++ (machine ++ rest)) := by
  have hhead : "# ".toList.head? = some '#' := rfl
  simp only [isLabel, Bool.and_eq_true, List.all_eq_true] at h
  cases hmachine : machine.toList with
  | nil => simp [String.toList_eq_nil_iff.mp hmachine] at h
  | cons c cs =>
    have hchar : isLabelChar c = true := h.1.2 c (by simp [hmachine])
    have hbegin : '>' ≠ c := by
      rintro rfl
      exact absurd hchar (by decide)
    have hend : '<' ≠ c := by
      rintro rfl
      exact absurd hchar (by decide)
    rw [IsPlain, Script.trimStart_append hhead (by decide), Text.after?, Text.after?,
      String.toList_append, String.toList_append, hmachine]
    simp [Script.sectionBegin, Script.sectionEnd, Text.Chars.after?, hbegin, hend]

theorem linesAll_header :
    linesAll 0 (header machine mode).children =
      ["# " ++ (machine ++ ": " ++ mode.word ++ " script"), "hostname=$(hostname)", "pass=0",
        "fail=0", "fail_string=\"\"", "proceed=1",
        "echo " ++ quote (mode.word ++ " " ++ machine ++ " on ") ++ "\"$hostname\""] := by
  have hne : machine ++ ": " ++ mode.word ++ " script" ≠ "" := fun heq => by
    simpa using congrArg String.toList heq
  have htitle := Script.lines_comment (isLine_title h mode)
  rw [if_neg hne] at htitle
  have hclosed : (Command.nodesOf [.lookUpHost, .setDigit .pass 0, .setDigit .fail 0,
      .clear .failed, .setDigit .proceed 1]).flatMap (Node.lines 0) =
      ["hostname=$(hostname)", "pass=0", "fail=0", "fail_string=\"\"", "proceed=1"] := by
    decide
  have hgreeting := Script.lines_line (isLine_greeting h mode)
  change linesAll 0 (Node.comment (machine ++ ": " ++ mode.word ++ " script") ::
    (Command.nodesOf [.lookUpHost, .setDigit .pass 0, .setDigit .fail 0, .clear .failed,
      .setDigit .proceed 1] ++
    [.line ("echo " ++ quote (mode.word ++ " " ++ machine ++ " on ") ++ "\"$hostname\"")])) = _
  rw [Script.linesAll_eq_flatMap, List.flatMap_cons, List.flatMap_append, hclosed,
    List.flatMap_singleton, htitle, hgreeting]
  rfl

/-- The header is read line by line. -/
theorem isVerbatim_header : ∀ l ∈ linesAll 0 (header machine mode).children, IsVerbatim l := by
  have htitle : IsVerbatim ("# " ++ (machine ++ ": " ++ mode.word ++ " script")) := by
    refine ⟨?_, ?_, fun heq => by simpa using congrArg String.toList heq⟩
    · rw [String.append_assoc, String.append_assoc]
      exact isPlain_remark h _
    · have hlast : " script".toList.getLast? = some 't' := by decide
      rw [← String.append_assoc, String.toList_append, List.getLast?_append, hlast]
      simp
  have hgreeting : IsVerbatim
      ("echo " ++ quote (mode.word ++ " " ++ machine ++ " on ") ++ "\"$hostname\"") :=
    isVerbatim_of_head (c := 'e') (d := '"') (by simp) (by decide) (by decide)
      (by rw [String.toList_append, List.getLast?_append]; rfl) (by decide)
  rw [linesAll_header h mode]
  simp only [List.forall_mem_cons]
  exact ⟨htitle, by decide, by decide, by decide, by decide, by decide, hgreeting, nofun⟩

end Header

/-- The footer is read line by line. -/
theorem isVerbatim_footer : ∀ l ∈ linesAll 0 footer.children, IsVerbatim l := by
  decide

/-! ## Whole scripts -/

theorem isInterpreter_sh : Script.IsInterpreter "#!/bin/sh" :=
  ⟨by decide, by decide, by decide⟩

section Script

variable {machine : String} {units : List ConfigUnit} (mode : Mode)

theorem isMarked_sections (hmachine : isLabel machine = true) (hunits : ∀ u ∈ units, u.IsLegal) :
    ∀ n ∈ header machine mode :: (units.map (unitSection mode) ++ [footer]), IsMarked n := by
  refine List.forall_mem_cons.mpr ⟨isMarked_header hmachine mode, ?_⟩
  refine List.forall_mem_append.mpr ⟨List.forall_mem_map.mpr fun u hu => ?_, ?_⟩
  · exact isMarked_unitSection (hunits u hu) mode
  · exact fun n hn => List.mem_singleton.mp hn ▸ isMarked_footer

/-- What the sections of a script say about themselves. -/
theorem map_sections_scriptTree (hmachine : isLabel machine = true)
    (hunits : ∀ u ∈ units, u.IsLegal) :
    (scriptTree machine units mode).sections.map (fun s => (s.name, s.attributes)) =
      (headerName, [("machine", machine), ("mode", mode.word)]) ::
        (units.map (fun u => (u.label, u.attributes)) ++ [(footerName, [])]) := by
  rw [scriptTree, Script.sections_document _ (isMarked_sections mode hmachine hunits),
    List.map_cons, List.map_append, List.map_map, attributes_header]
  refine congrArg (_ :: · ++ _) (List.map_congr_left fun u _ => ?_)
  exact congrArg (u.label, ·) (attributes_unitSection mode u)

/-- Whether a script is read back depends on the lines of its units only. -/
theorem readsBack_scriptTree (hmachine : isLabel machine = true)
    (hunits : ∀ u ∈ units, u.IsLegal) :
    (∃ tree, ReadsBack (scriptTree machine units mode) tree) ↔
      ∀ u ∈ units, ∀ l ∈ linesAll 0 (Command.nodesOf (u.commands mode)), IsVerbatim l := by
  rw [scriptTree, Script.readsBack_iff isInterpreter_sh (isMarked_sections mode hmachine hunits),
    List.forall_mem_cons, List.forall_mem_append, List.forall_mem_map]
  refine ⟨fun h => h.2.1, fun h => ⟨isVerbatim_header hmachine mode, h, ?_⟩⟩
  exact fun n hn => List.mem_singleton.mp hn ▸ isVerbatim_footer

end Script

/-- The script of a list of units that can be run in its order is read back, as a header, the units
in their order and a footer, each with its attributes and none inside another, and is written again
as it was, exactly if every line of a unit's section is taken for itself and keeps its characters :
it does not begin with the mark of a marker, does not end in a carriage return, and is no lone mark
of a remark with a blank behind it. -/
theorem scriptTree_readsBack_iff (machine : String) (units : List ConfigUnit) (mode : Mode)
    (hmachine : isLabel machine = true) (hunits : checkUnits machine units = .ok ()) :
    (∃ tree, Script.parse (scriptTree machine units mode).render = .ok tree ∧
      tree.sections.map (fun s => (s.name, s.attributes)) =
        (headerName, [("machine", machine), ("mode", mode.word)]) ::
          (units.map (fun u => (u.label, ("after", u.precondition) ::
            if u.isSingleton then [("singleton", "yes")] else [])) ++ [(footerName, [])]) ∧
      ((tree.preorder 0).map (·.2)).filter Node.isSection = tree.sections ∧
      tree.render = (scriptTree machine units mode).render) ↔
    ∀ u ∈ units, ∀ l ∈ linesAll 0 (Command.nodesOf (u.commands mode)), IsVerbatim l := by
  have hlegal := isLegal_of_isOrdered (by simp) (checkUnits_eq_ok.mp hunits)
  have hsections := map_sections_scriptTree mode hmachine hlegal
  rw [← readsBack_scriptTree mode hmachine hlegal]
  constructor
  · rintro ⟨tree, hparsed, hnames, hnesting, hrendered⟩
    exact ⟨tree, hparsed, hnames.trans hsections.symm, hnesting, hrendered⟩
  · rintro ⟨tree, hparsed, hnames, hnesting, hrendered⟩
    exact ⟨tree, hparsed, hnames.trans hsections, hnesting, hrendered⟩

theorem scriptTree_readsBack_iff_up :
    ∃ tree, Script.parse (scriptTree "lab" [singleton "up" "true" ""] .audit).render = .ok tree ∧
      tree.sections.map (·.name) = ["header", "up", "footer"] := by
  have hlines : ∀ u ∈ [singleton "up" "true" ""],
      ∀ l ∈ linesAll 0 (Command.nodesOf (u.commands .audit)), IsVerbatim l := by
    decide +kernel
  obtain ⟨tree, hparsed, hsections, -, -⟩ :=
    (scriptTree_readsBack_iff "lab" _ .audit (by decide) (by decide)).mpr hlines
  refine ⟨tree, hparsed, ?_⟩
  have hnames := congrArg (List.map Prod.fst) hsections
  rwa [List.map_map] at hnames

/-! ## Configurations of several lines -/

theorem mem_linesAll {depth : Nat} {n : Node} {ns : List Node} (hn : n ∈ ns) {l : String}
    (hl : l ∈ n.lines depth) : l ∈ linesAll depth ns := by
  rw [Script.linesAll_eq_flatMap]
  exact List.mem_flatMap.mpr ⟨n, hn, hl⟩

theorem mem_lines_block {depth : Nat} {n : Node} (hn : n.kind = .block) {l : String}
    (hl : l ∈ linesAll (depth + 1) n.children) : l ∈ n.lines depth := by
  obtain ⟨kind, name, attributes, text, close, children⟩ := n
  subst hn
  rw [Node.lines.eq_def]
  exact List.mem_append_left _ (List.mem_append_right _ hl)

/-- Every line of a configuration behind its first stands in the script as it is. -/
theorem mem_lines_of_config {u : ConfigUnit} {command l : String} (h : u.config = some command)
    (hl : l ∈ (Text.splitAt '\n' command).tail) :
    l ∈ linesAll 0 (Command.nodesOf (u.commands .config)) := by
  have htext : l ∈ textLines 2 command := by
    rw [textLines]
    cases hsplit : Text.splitAt '\n' command with
    | nil => simp [hsplit] at hl
    | cons first rest =>
      rw [hsplit] at hl
      exact List.mem_cons_of_mem _ hl
  have hmend : l ∈ linesAll 1 (Command.nodesOf u.mendCommands) := by
    rw [mendCommands, h]
    refine mem_linesAll List.mem_cons_self (mem_lines_block rfl ?_)
    exact mem_linesAll (List.mem_cons_of_mem _ List.mem_cons_self) htext
  refine mem_linesAll List.mem_cons_self (mem_lines_block rfl ?_)
  change l ∈ linesAll 1 (Command.nodesOf (u.auditCommands ++ u.mendCommands))
  rw [Shell.nodesOf_append, Script.linesAll_eq_flatMap, List.flatMap_append,
    ← Script.linesAll_eq_flatMap, ← Script.linesAll_eq_flatMap]
  exact List.mem_append_right _ hmend

/-- A file with the line behind which a package manager keeps its own settings. -/
def markedFile : ConfigUnit :=
  fileContent "/root/.bashrc" "# >>> conda initialize >>>\n"

/-- A unit whose configuration has a line that is taken for a marker cannot be read back. -/
theorem scriptTree_misread :
    isLabel "lab" = true ∧ checkUnits "lab" [markedFile] = .ok () ∧
    ¬∃ tree, Script.parse (scriptTree "lab" [markedFile] .config).render = .ok tree ∧
      tree.sections.map (fun s => (s.name, s.attributes)) =
        [("header", [("machine", "lab"), ("mode", "config")]),
          (markedFile.label, [("after", "proceed")]), ("footer", [])] ∧
      ((tree.preorder 0).map (·.2)).filter Node.isSection = tree.sections ∧
      tree.render = (scriptTree "lab" [markedFile] .config).render := by
  have hmachine : isLabel "lab" = true := by decide
  have hunits : checkUnits "lab" [markedFile] = .ok () := by decide +kernel
  have hlegal := isLegal_of_isOrdered (by simp) (checkUnits_eq_ok.mp hunits)
  refine ⟨hmachine, hunits, ?_⟩
  rintro ⟨tree, hparsed, hnames, hnesting, hrendered⟩
  have hread : ReadsBack (scriptTree "lab" [markedFile] .config) tree :=
    ⟨hparsed, hnames.trans (map_sections_scriptTree .config hmachine hlegal).symm, hnesting,
      hrendered⟩
  have hlines := (readsBack_scriptTree .config hmachine hlegal).mp ⟨tree, hread⟩
  have hmarker : "# >>> conda initialize >>>" ∈
      (Text.splitAt '\n' (markedFile.config.getD "")).tail := by
    decide +kernel
  have hverbatim := hlines markedFile List.mem_cons_self _ (mem_lines_of_config rfl hmarker)
  exact absurd hverbatim.plain (by decide)

end NetworkCompiler.ConfigUnit
