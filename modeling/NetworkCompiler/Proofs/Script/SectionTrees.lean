import NetworkCompiler.Proofs.Script.FixedPoint

/-!
# Sections of trees read back

A document whose sections stand only in the document or in one another (`IsSectioned`) is written
and read back : the sections stand in one another as before, and the text is the same
(`parse_render_of_isSectioned`). Blocks, commands and remarks come back line by line. What carries
the induction is `RereadAs` : lines that are read as nodes which are written as these lines again.
Every kind of tree has lines of this form, put together as the tree is (`RereadAs.append`,
`RereadAs.sect`).
-/

namespace NetworkCompiler.Script

open Node (document linesAll)
open Text (IsLine)

/-! ## Sections of a tree -/

/-- A section and the sections in it, without what else stands there. -/
inductive Outline where
  | sect (name : String) (attributes : Dictionary String String) (inner : List Outline)

namespace Node

mutual

/-- The sections of a tree as they stand in one another. A node that is no section counts for
what stands in it. -/
def outline : Node → List Outline
  | ⟨.sect, name, attributes, _, _, children⟩ => [.sect name attributes (outlineAll children)]
  | ⟨_, _, _, _, _, children⟩ => outlineAll children

/-- The sections of the trees of a list. -/
def outlineAll : List Node → List Outline
  | [] => []
  | n :: ns => outline n ++ outlineAll ns

end

mutual

/-- The lines of a tree at the margin that are not markers of its sections. -/
def otherLines : Node → List String
  | ⟨.sect, _, _, _, _, children⟩ => otherLinesAll children
  | n => n.lines 0

/-- The lines of the trees of a list that are not markers of their sections. -/
def otherLinesAll : List Node → List String
  | [] => []
  | n :: ns => otherLines n ++ otherLinesAll ns

end

/-- Induction over the trees of a list : what holds of the children of a tree and of the trees
behind it holds of both. -/
@[elab_as_elim]
theorem forestInduction {motive : List Node → Prop} (nil : motive [])
    (cons : ∀ n ns, motive n.children → motive ns → motive (n :: ns)) : ∀ ns, motive ns
  | [] => nil
  | ⟨_, _, _, _, _, children⟩ :: ns =>
    cons _ ns (forestInduction nil cons children) (forestInduction nil cons ns)

/-- The nodes of the trees of a list, parents before children. -/
def nodes (ns : List Node) : List Node :=
  (preorderAll 0 ns).map (·.2)

/-- The lines that a document is written as besides its children. -/
def interpreterLines (n : Node) : List String :=
  n.text.toList.flatMap (textLines 0)

theorem lines_of_document {n : Node} (h : n.kind = .document) :
    n.lines 0 = n.interpreterLines ++ linesAll 0 n.children := by
  obtain ⟨kind, name, attributes, text, close, children⟩ := n
  subst h
  rw [lines.eq_def, interpreterLines]
  cases text <;> simp

theorem nodes_cons (n : Node) (ns : List Node) :
    nodes (n :: ns) = n :: (nodes n.children ++ nodes ns) := by
  obtain ⟨kind, name, attributes, text, close, children⟩ := n
  rw [nodes, preorderAll, preorder, List.map_append, List.map_cons, map_preorderAll (0 + 1) 0]
  rfl

theorem outline_eq (n : Node) :
    n.outline =
      if n.isSection then [.sect n.name n.attributes (outlineAll n.children)]
      else outlineAll n.children := by
  obtain ⟨kind, name, attributes, text, close, children⟩ := n
  cases kind <;> simp [outline, isSection]

theorem otherLines_eq (n : Node) :
    n.otherLines = if n.isSection then otherLinesAll n.children else n.lines 0 := by
  obtain ⟨kind, name, attributes, text, close, children⟩ := n
  cases kind <;> simp [otherLines, isSection]

theorem not_isSection_of_sections {n : Node} (h : n.sections = []) :
    ∀ c ∈ n.children, c.isSection = false := by
  intro c hc
  exact Bool.eq_false_iff.mpr (List.filter_eq_nil_iff.mp h c hc)

end Node

open Node (nodes outline outlineAll otherLines otherLinesAll nodes_cons)

instance (n : Node) : Decidable (IsMarked n) :=
  decidable_of_iff
    (n.kind = .sect ∧ (n.name.toList ≠ [] ∧ Text.Chars.IsSolid n.name.toList) ∧
      (∀ e ∈ n.attributes, '=' ∉ e.1.toList ∧ Text.Chars.IsSolid e.1.toList) ∧
      (∀ e ∈ n.attributes, Text.Chars.IsSolid e.2.toList) ∧
      Dictionary.ofList n.attributes = n.attributes)
    ⟨fun h => ⟨h.1, h.2.1, h.2.2.1, h.2.2.2.1, h.2.2.2.2⟩,
      fun h => ⟨h.kind, h.name, h.keys, h.values, h.sorted⟩⟩

/-- Trees whose sections stand at the top or in one another, with markers that can be read, and
whose other lines are read for themselves. -/
structure IsSectioned (ns : List Node) : Prop where
  /-- Only sections hold sections. -/
  placed : ∀ n ∈ nodes ns, n.isSection = false → n.sections = []
  marked : ∀ n ∈ nodes ns, n.isSection = true → IsMarked n
  verbatim : ∀ l ∈ otherLinesAll ns, IsVerbatim l

/-- Where only sections hold sections, and none stands at the top, there is none. -/
theorem outlineAll_eq_nil (ns : List Node) (hns : ∀ n ∈ ns, n.isSection = false)
    (hplaced : ∀ n ∈ nodes ns, n.isSection = false → n.sections = []) : outlineAll ns = [] := by
  induction ns using Node.forestInduction with
  | nil => rw [outlineAll]
  | cons n ns ihchildren ih =>
    rw [nodes_cons, List.forall_mem_cons, List.forall_mem_append] at hplaced
    obtain ⟨hn, hbelow, hrest⟩ := hplaced
    obtain ⟨hnsect, hns⟩ := List.forall_mem_cons.mp hns
    have hinner := ihchildren (Node.not_isSection_of_sections (hn hnsect)) hbelow
    rw [outlineAll, Node.outline_eq, hnsect, hinner, ih hns hrest]
    rfl

/-! ## Lines that are read back -/

/-- Lines that are read as nodes with certain sections and are written from them as they were. -/
structure RereadAs (ls : List String) (ns : List Node) (sections : List Outline) : Prop where
  read : ReadAs ls ns
  written : linesAll 0 ns = ls
  sections : outlineAll ns = sections
  /-- No line loses a carriage return. -/
  kept : ∀ l ∈ ls, asRead l = l

theorem linesAll_append (depth : Nat) (ns ms : List Node) :
    linesAll depth (ns ++ ms) = linesAll depth ns ++ linesAll depth ms := by
  rw [linesAll_eq_flatMap, linesAll_eq_flatMap, linesAll_eq_flatMap, List.flatMap_append]

theorem outlineAll_append (ns ms : List Node) :
    outlineAll (ns ++ ms) = outlineAll ns ++ outlineAll ms := by
  induction ns with
  | nil => rw [List.nil_append, outlineAll, List.nil_append]
  | cons n ns ih => rw [List.cons_append, outlineAll, ih, outlineAll, List.append_assoc]

theorem outlineAll_map_plainNode (ls : List String) : outlineAll (ls.map plainNode) = [] := by
  induction ls with
  | nil => rw [List.map_nil, outlineAll]
  | cons l ls ih =>
    obtain ⟨hsection, hchildren⟩ := plainNode_leaf l
    rw [List.map_cons, outlineAll, Node.outline_eq, hsection, hchildren, ih]
    rfl

theorem RereadAs.append {ls ms : List String} {ns os : List Node} {s t : List Outline}
    (hls : RereadAs ls ns s) (hms : RereadAs ms os t) :
    RereadAs (ls ++ ms) (ns ++ os) (s ++ t) where
  read := hls.read.append hms.read
  written := by rw [linesAll_append, hls.written, hms.written]
  sections := by rw [outlineAll_append, hls.sections, hms.sections]
  kept := List.forall_mem_append.mpr ⟨hls.kept, hms.kept⟩

/-- Lines that are read for themselves come back as they are, without sections. -/
theorem RereadAs.of_isVerbatim {ls : List String} (hls : ∀ l ∈ ls, IsVerbatim l)
    (hlines : ∀ l ∈ ls, IsLine l) : RereadAs ls (ls.map plainNode) [] where
  read := .of_isPlain fun l hl => (hls l hl).plain
  written := by
    have hline : ∀ l ∈ ls, (plainNode l).lines 0 = [l] := fun l hl => by
      rw [lines_plainNode (hlines l hl), rewritten, if_neg (hls l hl).remark]
    rw [linesAll_eq_flatMap, List.flatMap_map, List.flatMap_congr hline]
    exact (List.map_eq_flatMap (f := id)).symm.trans (List.map_id _)
  sections := outlineAll_map_plainNode ls
  kept := fun l hl => asRead_eq_self (hls l hl).ending

/-- The lines of a section come back as the section, with what its body comes back as. -/
theorem RereadAs.sect {n : Node} (hn : IsMarked n) {ls : List String} {ns : List Node}
    {inner : List Outline} (h : RereadAs ls ns inner) :
    RereadAs (sectionLines n ls)
      [{ kind := .sect, name := n.name, attributes := n.attributes, children := ns }]
      [.sect n.name n.attributes inner] where
  read := h.read.sectionLines hn
  written := by
    rw [linesAll, linesAll, List.append_nil, lines_of_ofLine (ofLine_beginLine hn), h.written]
    rfl
  sections := by
    rw [outlineAll, outlineAll, Node.outline, h.sections, List.append_nil]
  kept := by
    rw [sectionLines, List.forall_mem_cons, List.forall_mem_append, List.forall_mem_singleton]
    exact ⟨(isSpaced_beginLine hn).asRead_eq_self, h.kept, (isSpaced_endLine hn).asRead_eq_self⟩

/-! ## Trees that are read back -/

theorem exists_rereadAs (ns : List Node) (h : IsSectioned ns) :
    ∃ ms, RereadAs (linesAll 0 ns) ms (outlineAll ns) := by
  induction ns using Node.forestInduction with
  | nil => exact ⟨[], .nil, by rw [linesAll], by rw [outlineAll], by simp [linesAll]⟩
  | cons n ns ihchildren ih =>
    obtain ⟨hplaced, hmarked, hverbatim⟩ := h
    rw [nodes_cons, List.forall_mem_cons, List.forall_mem_append] at hplaced hmarked
    rw [otherLinesAll, List.forall_mem_append, Node.otherLines_eq] at hverbatim
    obtain ⟨hnplaced, hbelowplaced, hrestplaced⟩ := hplaced
    obtain ⟨hnmarked, hbelowmarked, hrestmarked⟩ := hmarked
    obtain ⟨hnverbatim, hrestverbatim⟩ := hverbatim
    obtain ⟨ms, hms⟩ := ih ⟨hrestplaced, hrestmarked, hrestverbatim⟩
    rw [linesAll, outlineAll, Node.outline_eq]
    cases hn : n.isSection with
    | true =>
      rw [if_pos hn] at hnverbatim
      obtain ⟨children, hchildren⟩ := ihchildren ⟨hbelowplaced, hbelowmarked, hnverbatim⟩
      rw [lines_of_isMarked (hnmarked hn)]
      exact ⟨_, (hchildren.sect (hnmarked hn)).append hms⟩
    | false =>
      rw [hn] at hnverbatim
      have hnone : outlineAll n.children = [] :=
        outlineAll_eq_nil n.children (Node.not_isSection_of_sections (hnplaced hn)) hbelowplaced
      have hlines : ∀ l ∈ n.lines 0, IsLine l := fun l hl => Node.isLine_of_mem_lines n hl
      rw [hnone]
      exact ⟨_, (RereadAs.of_isVerbatim hnverbatim hlines).append hms⟩

theorem outline_documentOf {ls : List String} {ns : List Node} (h : ReadAs ls ns) :
    (documentOf ls ns).outline = outlineAll ns := by
  cases ls with
  | nil =>
    cases h
    rfl
  | cons l ls =>
    cases hl : isInterpreterLine l with
    | true =>
      obtain ⟨os, rfl, -⟩ := (readAs_cons_iff (isPlain_of_isInterpreterLine hl)).mp h
      obtain ⟨hsection, hchildren⟩ := plainNode_leaf l
      rw [documentOf, if_pos hl, document, Node.outline_eq, outlineAll, Node.outline_eq, hsection,
        hchildren]
      rfl
    | false =>
      rw [documentOf_cons hl h, document, Node.outline_eq]
      rfl

/-- A document of sections, with other lines that are read for themselves, is read from what it is
written as : it is written as before, and its sections stand in one another as before. -/
theorem parse_render_of_isSectioned {doc : Node} (hkind : doc.kind = .document)
    (hchildren : IsSectioned doc.children) (htext : ∀ l ∈ doc.interpreterLines, IsVerbatim l) :
    ∃ tree, parse doc.render = .ok tree ∧ tree.render = doc.render ∧
      tree.outline = doc.outline := by
  have hlines := Node.lines_of_document hkind
  have hline : ∀ l ∈ doc.lines 0, IsLine l := fun l hl => Node.isLine_of_mem_lines doc hl
  have htextline : ∀ l ∈ doc.interpreterLines, IsLine l := fun l hl =>
    hline l (hlines ▸ List.mem_append_left _ hl)
  obtain ⟨ns, hread⟩ : ∃ ns, RereadAs (doc.lines 0) ns (outlineAll doc.children) := by
    obtain ⟨ns, hns⟩ := exists_rereadAs doc.children hchildren
    rw [hlines]
    exact ⟨_, (RereadAs.of_isVerbatim htext htextline).append hns⟩
  have hunlines : Text.lines doc.render = doc.lines 0 := by
    rw [Node.render, Text.lines_unlines hline]
    exact (List.map_congr_left hread.kept).trans (List.map_id _)
  have hnot : doc.isSection = false := by
    rw [Node.isSection, hkind]
    rfl
  refine ⟨documentOf (doc.lines 0) ns, ?_, ?_, ?_⟩
  · rw [parse_eq_ok_iff, hunlines]
    exact ⟨ns, hread.read, rfl⟩
  · rw [Node.render, lines_documentOf hread.read hline, hread.written, Node.render]
  · rw [outline_documentOf hread.read, hread.sections, Node.outline_eq, hnot]
    rfl

/-- A script with a section in a section, and in it a block around a command of three lines. -/
def motdScript : Node :=
  document (some "#!/bin/sh")
    [.comment "header", .blank,
      .sect "host_hostname" [("phase", "persistent_config")]
        [.comment "hostname matches label",
          .sect "motd" []
            [.block "if [ \"$out\" = web ]; then" "fi"
              [.line "host_hostname=1", .line "cat > /etc/motd <<EOF\nwelcome\nEOF"]]],
      .line "echo done"]

theorem parse_render_motdScript :
    motdScript.kind = .document ∧ IsSectioned motdScript.children ∧
      (∀ l ∈ motdScript.interpreterLines, IsVerbatim l) ∧
      ∃ tree, parse motdScript.render = .ok tree ∧ tree.render = motdScript.render ∧
        tree.outline = [.sect "host_hostname" [("phase", "persistent_config")]
          [.sect "motd" [] []]] := by
  have hchildren : IsSectioned motdScript.children := ⟨by decide, by decide, by decide⟩
  have htext : ∀ l ∈ motdScript.interpreterLines, IsVerbatim l := by decide
  exact ⟨rfl, hchildren, htext, parse_render_of_isSectioned rfl hchildren htext⟩

end NetworkCompiler.Script
