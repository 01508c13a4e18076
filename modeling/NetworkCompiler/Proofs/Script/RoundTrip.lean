import NetworkCompiler.Proofs.Script.Grammar

/-!
# Documents read back

A document of sections is written and read back (`ReadsBack`) : the same sections stand in it, none
inside another, and it is written as it was. `readsBack_iff` says when : exactly if every line
between the markers is taken for itself and written again as it was (`IsVerbatim`). A line that is
taken for a marker opens or closes a section too many (`parseLines_counts`), and any other line
that is not `IsVerbatim` is written differently.
-/

namespace NetworkCompiler.Script

open Node (document linesAll)
open Text (IsLine isLine_append)

/-! ## Lines as they are read -/

/-- A line as the reader gets it : a carriage return at its end belongs to the line end. -/
def asRead (l : String) : String :=
  String.ofList (Text.Chars.dropReturn l.toList)

theorem asRead_eq_self {l : String} (h : l.toList.getLast? ≠ some '\r') : asRead l = l := by
  rw [asRead, Text.Chars.dropReturn_of_getLast? h, String.ofList_toList]

theorem asRead_append_return (l : String) : asRead (l ++ "\r") = l := by
  have hdrop : Text.Chars.dropReturn (l ++ "\r").toList = l.toList := by
    rw [String.toList_append, Text.Chars.dropReturn]
    exact congrArg (Option.getD · _) (Text.Chars.before?_append l.toList ['\r'])
  rw [asRead, hdrop, String.ofList_toList]

theorem exists_append_return {l : String} (h : l.toList.getLast? = some '\r') :
    ∃ s, l = s ++ "\r" := by
  obtain ⟨cs, hcs⟩ := List.getLast?_eq_some_iff.mp h
  refine ⟨String.ofList cs, ?_⟩
  rw [← String.toList_inj, hcs, String.toList_append, String.toList_ofList]
  rfl

theorem isLine_asRead {l : String} (h : IsLine l) : IsLine (asRead l) := by
  by_cases hreturn : l.toList.getLast? = some '\r'
  · obtain ⟨s, rfl⟩ := exists_append_return hreturn
    rw [asRead_append_return]
    rw [IsLine, String.toList_append, List.mem_append, not_or] at h
    exact h.1
  · rwa [asRead_eq_self hreturn]

theorem length_rewritten_le (l : String) : (rewritten l).length ≤ l.length := by
  rw [rewritten]
  split
  · next h =>
    subst h
    decide
  · exact Nat.le_refl _

/-- A line is written as it was exactly if no carriage return and no blank gets lost. -/
theorem rewritten_asRead_eq_self {l : String} :
    rewritten (asRead l) = l ↔ l.toList.getLast? ≠ some '\r' ∧ l ≠ "# " := by
  by_cases hreturn : l.toList.getLast? = some '\r'
  · obtain ⟨s, rfl⟩ := exists_append_return hreturn
    refine ⟨fun h => ?_, fun h => absurd hreturn h.1⟩
    have hlength := length_rewritten_le s
    rw [asRead_append_return] at h
    have hone : "\r".length = 1 := by decide
    rw [h, String.length_append] at hlength
    omega
  · rw [asRead_eq_self hreturn, rewritten]
    by_cases hremark : l = "# "
    · subst hremark
      simp
    · simp [hreturn, hremark]

theorem isVerbatim_iff {l : String} :
    IsVerbatim l ↔ IsPlain (asRead l) ∧ rewritten (asRead l) = l := by
  rw [rewritten_asRead_eq_self]
  constructor
  · rintro ⟨hplain, hending, hremark⟩
    exact ⟨(asRead_eq_self hending).symm ▸ hplain, hending, hremark⟩
  · rintro ⟨hplain, hending, hremark⟩
    exact ⟨asRead_eq_self hending ▸ hplain, hending, hremark⟩

/-! ## Lines of markers -/

/-- A text whose only blanks are spaces. -/
def IsSpaced (s : String) : Prop :=
  ∀ c ∈ s.toList, Text.isBlank c = false ∨ c = ' '

instance (s : String) : Decidable (IsSpaced s) :=
  List.decidableBAll (fun c => Text.isBlank c = false ∨ c = ' ') s.toList

theorem IsSpaced.isLine {s : String} (h : IsSpaced s) : IsLine s :=
  fun hmem => absurd (h _ hmem) (by decide)

theorem IsSpaced.asRead_eq_self {s : String} (h : IsSpaced s) : asRead s = s :=
  Script.asRead_eq_self fun hlast => absurd (h _ (List.mem_of_mem_getLast? hlast)) (by decide)

theorem rewritten_asRead_of_isSpaced (l : String) (h : IsSpaced l) (hne : l ≠ "# ") :
    rewritten (asRead l) = l := by
  rw [h.asRead_eq_self, rewritten, if_neg hne]

theorem isSpaced_of_isSolid {s : String} (h : Text.Chars.IsSolid s.toList) : IsSpaced s :=
  fun c hc => .inl (h c hc)

theorem IsSpaced.append {s t : String} (hs : IsSpaced s) (ht : IsSpaced t) : IsSpaced (s ++ t) := by
  intro c hc
  rw [String.toList_append, List.mem_append] at hc
  exact hc.elim (hs c) (ht c)

section Marked

variable {n : Node} (h : IsMarked n)
include h

theorem isSpaced_beginLine : IsSpaced (beginLine n.name n.attributes) := by
  refine IsSpaced.append (.append (by decide) (isSpaced_of_isSolid h.name.2)) ?_
  intro c hc
  rw [String.toList_join, List.flatMap_map, List.mem_flatMap] at hc
  obtain ⟨e, he, hc⟩ := hc
  have hspaced : IsSpaced (" " ++ e.1 ++ "=" ++ e.2) :=
    .append (.append (.append (by decide) (isSpaced_of_isSolid (h.keys e he).2)) (by decide))
      (isSpaced_of_isSolid (h.values e he))
  exact hspaced c hc

theorem isSpaced_endLine : IsSpaced (sectionEnd ++ n.name) :=
  .append (by decide) (isSpaced_of_isSolid h.name.2)

theorem lines_of_isMarked : n.lines 0 = sectionLines n (linesAll 0 n.children) := by
  have hbegin := textLines_of_isLine (isSpaced_beginLine h).isLine
  have hend := textLines_of_isLine (isSpaced_endLine h).isLine
  have hkind := h.kind
  obtain ⟨kind, name, attributes, text, close, children⟩ := n
  subst hkind
  rw [Node.lines, hbegin, hend]
  rfl

theorem map_sectionLines {f : String → String} (hf : ∀ l, IsSpaced l → l ≠ "# " → f l = l)
    (body : List String) : (sectionLines n body).map f = sectionLines n (body.map f) := by
  have hbegin : beginLine n.name n.attributes ≠ "# " := fun heq => by
    simpa [beginLine, sectionBegin] using congrArg String.toList heq
  have hend : sectionEnd ++ n.name ≠ "# " := fun heq => by
    simpa [sectionEnd] using congrArg String.toList heq
  rw [sectionLines, List.map_cons, List.map_append, List.map_singleton,
    hf _ (isSpaced_beginLine h) hbegin, hf _ (isSpaced_endLine h) hend]
  rfl

end Marked

/-! ## Documents -/

/-- The lines of a document whose sections have certain bodies. -/
def documentLines (interpreter : String) (ns : List Node) (body : Node → List String) :
    List String :=
  interpreter :: ns.flatMap fun n => sectionLines n (body n)

/-- A line that names an interpreter and is written as it is read. -/
structure IsInterpreter (l : String) : Prop where
  mark : isInterpreterLine l = true
  line : IsLine l
  ending : l.toList.getLast? ≠ some '\r'

theorem rewritten_asRead_interpreter {l : String} (h : IsInterpreter l) :
    rewritten (asRead l) = l := by
  refine rewritten_asRead_eq_self.mpr ⟨h.ending, ?_⟩
  rintro rfl
  exact absurd h.mark (by decide)

theorem linesAll_eq_flatMap (depth : Nat) (ns : List Node) :
    linesAll depth ns = ns.flatMap (Node.lines depth) := by
  induction ns with
  | nil => rw [linesAll, List.flatMap_nil]
  | cons n ns ih => rw [linesAll, ih, List.flatMap_cons]

theorem isLine_of_mem_body {n : Node} {l : String} (h : l ∈ (linesAll 0 n.children).map asRead) :
    IsLine l := by
  obtain ⟨l, hl, rfl⟩ := List.mem_map.mp h
  exact isLine_asRead (Node.isLine_of_mem_linesAll n.children hl)

section Document

variable {interpreter : String} {ns : List Node} (hns : ∀ n ∈ ns, IsMarked n)
include hns

theorem lines_document (hline : IsLine interpreter) :
    (document (some interpreter) ns).lines 0 =
      documentLines interpreter ns fun n => linesAll 0 n.children := by
  rw [document, Node.lines.eq_def]
  simp only [textLines_of_isLine hline, linesAll_eq_flatMap 0 ns]
  rw [documentLines, List.singleton_append,
    List.flatMap_congr fun n hn => lines_of_isMarked (hns n hn)]

theorem map_documentLines {f : String → String} (hf : ∀ l, IsSpaced l → l ≠ "# " → f l = l)
    (hinterpreter : f interpreter = interpreter) (body : Node → List String) :
    (documentLines interpreter ns body).map f =
      documentLines interpreter ns fun n => (body n).map f := by
  rw [documentLines, List.map_cons, hinterpreter, List.map_flatMap,
    List.flatMap_congr fun n hn => map_sectionLines (hns n hn) hf (body n)]
  rfl

theorem lines_render (hinterpreter : IsInterpreter interpreter) :
    Text.lines (document (some interpreter) ns).render =
      documentLines interpreter ns fun n => (linesAll 0 n.children).map asRead := by
  rw [Node.render, Text.lines_unlines fun l hl => Node.isLine_of_mem_lines _ hl,
    lines_document hns hinterpreter.line]
  exact map_documentLines hns (fun l hl _ => hl.asRead_eq_self)
    (asRead_eq_self hinterpreter.ending) _

theorem parse_render (hinterpreter : IsInterpreter interpreter) :
    parse (document (some interpreter) ns).render =
      (parseLines (Text.lines (document (some interpreter) ns).render).length 2 [] []
        (ns.flatMap fun n => sectionLines n ((linesAll 0 n.children).map asRead))).map
          (document (some interpreter)) := by
  rw [parse, lines_render hns hinterpreter, documentLines]
  simp only [hinterpreter.mark, if_true]

/-- What a document is read as if no line between markers is one. -/
def rereadDocument (interpreter : String) (ns : List Node) : Node :=
  document (some interpreter) (ns.map fun n => reread n ((linesAll 0 n.children).map asRead))

theorem lines_rereadDocument (hinterpreter : IsInterpreter interpreter) :
    (rereadDocument interpreter ns).lines 0 =
      ((document (some interpreter) ns).lines 0).map fun l => rewritten (asRead l) := by
  have hreread : ∀ n ∈ ns, ∀ body, IsMarked (reread n body) := fun n hn body =>
    ⟨rfl, (hns n hn).name, (hns n hn).keys, (hns n hn).values, (hns n hn).sorted⟩
  have hmarked : ∀ m ∈ ns.map fun n => reread n ((linesAll 0 n.children).map asRead),
      IsMarked m := List.forall_mem_map.mpr fun n hn => hreread n hn _
  have hbody : ∀ ls : List String, (∀ l ∈ ls, IsLine l) →
      linesAll 0 (ls.map plainNode) = ls.map rewritten := by
    intro ls hls
    rw [linesAll_eq_flatMap, List.flatMap_map,
      List.flatMap_congr fun l hl => lines_plainNode (hls l hl), List.map_eq_flatMap]
  rw [rereadDocument, lines_document hmarked hinterpreter.line,
    lines_document hns hinterpreter.line,
    map_documentLines hns rewritten_asRead_of_isSpaced
      (rewritten_asRead_interpreter hinterpreter), documentLines, documentLines, List.flatMap_map]
  refine congrArg (interpreter :: ·) (List.flatMap_congr fun n hn => ?_)
  exact congrArg (sectionLines n)
    ((hbody _ fun l hl => isLine_of_mem_body hl).trans List.map_map)

/-- If no line between markers is one, the document is read as it stands. -/
theorem parse_of_isPlain (hinterpreter : IsInterpreter interpreter)
    (h : ∀ n ∈ ns, ∀ l ∈ linesAll 0 n.children, IsPlain (asRead l)) :
    parse (document (some interpreter) ns).render = .ok (rereadDocument interpreter ns) := by
  have hread := ReadAs.sections hns fun n hn => List.forall_mem_map.mpr (h n hn)
  rw [parse_render hns hinterpreter, parseLines_eq_ok_iff.mpr hread]
  rfl

/-- It is written as it was exactly if every line between markers is. -/
theorem render_rereadDocument (hinterpreter : IsInterpreter interpreter) :
    (rereadDocument interpreter ns).render = (document (some interpreter) ns).render ↔
      ∀ n ∈ ns, ∀ l ∈ linesAll 0 n.children, rewritten (asRead l) = l := by
  have hline : ∀ n : Node, ∀ l ∈ n.lines 0, IsLine l := fun n _ => Node.isLine_of_mem_lines n
  rw [Node.render, Node.render, Text.unlines_inj (hline _) (hline _),
    lines_rereadDocument hns hinterpreter, lines_document hns hinterpreter.line]
  constructor
  · intro h n hn l hl
    have hfix := List.map_inj_left.mp (h.trans (List.map_id _).symm)
    exact hfix l (List.mem_cons_of_mem _ (List.mem_flatMap.mpr
      ⟨n, hn, List.mem_cons_of_mem _ (List.mem_append_left _ hl)⟩))
  · intro h
    rw [map_documentLines hns rewritten_asRead_of_isSpaced
      (rewritten_asRead_interpreter hinterpreter), documentLines, documentLines,
      List.flatMap_congr fun n hn => congrArg (sectionLines n)
        ((List.map_inj_left.mpr (h n hn)).trans (List.map_id _))]

omit hns in
/-- Of lines of which one marker of each section counts, those between markers count besides. -/
theorem countP_sectionLines {p : String → Bool} {body : Node → List String}
    (hp : ∀ n ∈ ns, [beginLine n.name n.attributes, sectionEnd ++ n.name].countP p = 1) :
    (ns.flatMap fun n => sectionLines n (body n)).countP p =
      ns.length + (ns.flatMap body).countP p := by
  induction ns with
  | nil => rfl
  | cons n ns ih =>
    obtain ⟨hn, hns⟩ := List.forall_mem_cons.mp hp
    have hsection : (sectionLines n (body n)).countP p = 1 + (body n).countP p := by
      rw [List.countP_cons, List.countP_singleton] at hn
      rw [sectionLines, List.countP_cons, List.countP_append, List.countP_singleton]
      omega
    rw [List.flatMap_cons, List.countP_append, hsection, ih hns, List.flatMap_cons,
      List.countP_append, List.length_cons]
    omega

/-- If there are as many markers as sections have, no line between markers is one. -/
theorem isPlain_of_countP {body : Node → List String}
    (hopening : (ns.flatMap fun n => sectionLines n (body n)).countP isOpening = ns.length)
    (hclosing : (ns.flatMap fun n => sectionLines n (body n)).countP isClosing = ns.length) :
    ∀ n ∈ ns, ∀ l ∈ body n, IsPlain l := by
  have hmarkers : ∀ n ∈ ns,
      [beginLine n.name n.attributes, sectionEnd ++ n.name].countP isOpening = 1 ∧
        [beginLine n.name n.attributes, sectionEnd ++ n.name].countP isClosing = 1 := by
    intro n hn
    simp [isOpening, isClosing, ofLine_beginLine (hns n hn), ofLine_endLine]
  rw [countP_sectionLines fun n hn => (hmarkers n hn).1, Nat.add_eq_left, List.countP_eq_zero]
    at hopening
  rw [countP_sectionLines fun n hn => (hmarkers n hn).2, Nat.add_eq_left, List.countP_eq_zero]
    at hclosing
  intro n hn l hl
  have hmem : l ∈ ns.flatMap body := List.mem_flatMap.mpr ⟨n, hn, hl⟩
  exact isPlain_iff.mpr
    ⟨Bool.eq_false_iff.mpr (hopening l hmem), Bool.eq_false_iff.mpr (hclosing l hmem)⟩

end Document

/-- A tree is what a document is read as : the same sections, none inside another, and the same
text. -/
structure ReadsBack (doc tree : Node) : Prop where
  parsed : parse doc.render = .ok tree
  sections : tree.sections.map (fun s => (s.name, s.attributes)) =
    doc.sections.map fun s => (s.name, s.attributes)
  /-- The sections anywhere in the tree are those directly below its root. -/
  nesting : ((tree.preorder 0).map (·.2)).filter Node.isSection = tree.sections
  rendered : tree.render = doc.render

theorem sections_document (interpreter : Option String) {ns : List Node}
    (hns : ∀ n ∈ ns, IsMarked n) : (document interpreter ns).sections = ns :=
  List.filter_eq_self.mpr fun n hn => by simp [Node.isSection, (hns n hn).kind]

theorem sections_rereadDocument (interpreter : String) (ns : List Node) :
    (rereadDocument interpreter ns).sections =
      ns.map fun n => reread n ((linesAll 0 n.children).map asRead) :=
  List.filter_eq_self.mpr (List.forall_mem_map.mpr fun _ _ => rfl)

theorem allSections_map_plainNode (ls : List String) : allSections (ls.map plainNode) = [] := by
  induction ls with
  | nil => rfl
  | cons l ls ih => rw [List.map_cons, allSections_plainNode, ih]

theorem allSections_map_reread (ns : List Node) (body : Node → List String) :
    allSections (ns.map fun n => reread n (body n)) = ns.map fun n => reread n (body n) := by
  induction ns with
  | nil => rfl
  | cons n ns ih =>
    rw [List.map_cons, allSections_cons, ih, reread, allSections_map_plainNode]
    rfl

/-- The sections of a document at any depth. -/
theorem filter_preorder_document (interpreter : Option String) (ns : List Node) :
    (((document interpreter ns).preorder 0).map (·.2)).filter Node.isSection = allSections ns :=
  filter_preorder _

/-- A document of sections is read back exactly if every line between markers is taken for itself
and written as it was. -/
theorem readsBack_iff {interpreter : String} (hinterpreter : IsInterpreter interpreter)
    {ns : List Node} (hns : ∀ n ∈ ns, IsMarked n) :
    (∃ tree, ReadsBack (document (some interpreter) ns) tree) ↔
      ∀ n ∈ ns, ∀ l ∈ linesAll 0 n.children, IsVerbatim l := by
  simp only [isVerbatim_iff, forall_and]
  constructor
  · rintro ⟨tree, hparsed, hsections, hnesting, hrendered⟩
    obtain ⟨children, hchildren, rfl⟩ :=
      map_eq_ok.mp ((parse_render hns hinterpreter).symm.trans hparsed)
    obtain ⟨hopenings, hclosings⟩ := parseLines_counts hchildren
    have hlength : (allSections children).length = ns.length := by
      rw [← filter_preorder_document (some interpreter), hnesting]
      simpa [sections_document _ hns] using congrArg List.length hsections
    simp [allSections_nil] at hopenings hclosings
    have hplain := isPlain_of_countP hns (hopenings.symm.trans hlength)
      (hclosings.symm.trans (hopenings.symm.trans hlength))
    have hplain : ∀ n ∈ ns, ∀ l ∈ linesAll 0 n.children, IsPlain (asRead l) :=
      fun n hn => List.forall_mem_map.mp (hplain n hn)
    rw [parse_of_isPlain hns hinterpreter hplain] at hparsed
    rw [← Except.ok.inj hparsed, render_rereadDocument hns hinterpreter] at hrendered
    exact ⟨hplain, hrendered⟩
  · rintro ⟨hplain, hrewritten⟩
    refine ⟨rereadDocument interpreter ns, parse_of_isPlain hns hinterpreter hplain, ?_, ?_,
      (render_rereadDocument hns hinterpreter).mpr hrewritten⟩
    · rw [sections_document _ hns, sections_rereadDocument, List.map_map]
      rfl
    · rw [sections_rereadDocument, rereadDocument, filter_preorder_document,
        allSections_map_reread]

end NetworkCompiler.Script
