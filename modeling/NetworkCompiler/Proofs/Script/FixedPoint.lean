import NetworkCompiler.Proofs.Dictionary
import NetworkCompiler.Proofs.Script.RoundTrip

/-!
# Reading and writing once more

A script that is read may be written in another way : margins of markers go, words of a marker are
set apart by one space, attributes are sorted and each stands once, a blank behind a lone mark
goes. But what was written is read as the same document again (`parse_render_of_parse`). The lines
that the nodes of some lines are written as are read as these nodes (`ReadAs.linesAll`), because
a marker is written as it is read (`ofLine_beginLine_of_ofLine`), and so is any other line
(`plainNode_rewritten`).
-/

namespace NetworkCompiler.Script

open Node (document linesAll)
open Text (IsLine)

/-! ## Markers as they are read -/

/-- A section without a name is opened by the mark alone. -/
theorem beginLine_nil : beginLine "" [] = sectionBegin := by
  simp [beginLine]

/-- What an opening mark says about a section can be marked, or it has no name and says nothing. -/
theorem isMarked_or_of_openingOf {marker name : String} {attributes : Dictionary String String}
    (h : openingOf marker = .opening name attributes) :
    name = "" ∧ attributes = [] ∨
      IsMarked { kind := .sect, name := name, attributes := attributes } := by
  have hsolid : ∀ w ∈ Text.words marker, w.toList ≠ [] ∧ Text.Chars.IsSolid w.toList := by
    intro w hw
    obtain ⟨cs, hcs, rfl⟩ := List.mem_map.mp hw
    rw [String.toList_ofList]
    exact Text.Chars.isSolid_of_mem_words hcs
  rw [openingOf] at h
  cases hwords : Text.words marker with
  | nil =>
    rw [hwords] at h
    cases h
    exact Or.inl ⟨rfl, rfl⟩
  | cons word words =>
    rw [hwords] at h hsolid
    cases h
    obtain ⟨hname, hwords⟩ := List.forall_mem_cons.mp hsolid
    have hattribute : ∀ e ∈ Dictionary.ofList (words.filterMap attribute?),
        ('=' ∉ e.1.toList ∧ Text.Chars.IsSolid e.1.toList) ∧ Text.Chars.IsSolid e.2.toList := by
      intro e he
      obtain ⟨w, hw, hcut⟩ := List.mem_filterMap.mp (Dictionary.mem_of_mem_ofList he)
      obtain ⟨⟨key, value⟩, hkey, rfl⟩ := Option.map_eq_some_iff.mp hcut
      obtain ⟨hw', heq⟩ := Text.Chars.cutAt?_eq_some.mp hkey
      have hsolid := (hwords w hw).2
      rw [hw'] at hsolid
      simp only [String.toList_ofList]
      refine ⟨⟨heq, fun c hc => hsolid c ?_⟩, fun c hc => hsolid c ?_⟩
      · exact List.mem_append_left _ hc
      · exact List.mem_append_right _ (List.mem_cons_of_mem _ hc)
    exact Or.inr
      { kind := rfl
        name := hname
        keys := fun e he => (hattribute e he).1
        values := fun e he => (hattribute e he).2
        sorted := Dictionary.ofList_eq_self (Dictionary.isSorted_ofList _) }

section Opening

variable {l name : String} {attributes : Dictionary String String}
  (h : LineShape.ofLine l = .opening name attributes)
include h

theorem isMarked_or_of_ofLine : name = "" ∧ attributes = [] ∨
    IsMarked { kind := .sect, name := name, attributes := attributes } := by
  obtain ⟨marker, hstart, -⟩ := opens_iff.mpr ⟨attributes, h⟩
  rw [LineShape.ofLine, Text.after?_eq_some.mpr hstart] at h
  exact isMarked_or_of_openingOf h

/-- A section that was opened is opened again by the line that is written for it. -/
theorem ofLine_beginLine_of_ofLine :
    LineShape.ofLine (beginLine name attributes) = .opening name attributes := by
  rcases isMarked_or_of_ofLine h with ⟨rfl, rfl⟩ | hmarked
  · rw [beginLine_nil]
    rfl
  · have hline := ofLine_beginLine hmarked
    exact hline

theorem isSpaced_beginLine_of_ofLine : IsSpaced (beginLine name attributes) := by
  rcases isMarked_or_of_ofLine h with ⟨rfl, rfl⟩ | hmarked
  · rw [beginLine_nil]
    decide
  · have hspaced := isSpaced_beginLine hmarked
    exact hspaced

theorem isSolid_name_of_ofLine : Text.Chars.IsSolid name.toList := by
  rcases isMarked_or_of_ofLine h with ⟨rfl, rfl⟩ | hmarked
  · decide
  · exact hmarked.name.2

theorem isSpaced_endLine_of_ofLine : IsSpaced (sectionEnd ++ name) :=
  .append (by decide) (isSpaced_of_isSolid (isSolid_name_of_ofLine h))

theorem lines_of_ofLine (children : List Node) :
    ({ kind := .sect, name := name, attributes := attributes, children := children } : Node).lines
        0 = beginLine name attributes :: (linesAll 0 children ++ [sectionEnd ++ name]) := by
  rw [Node.lines, textLines_of_isLine (isSpaced_beginLine_of_ofLine h).isLine,
    textLines_of_isLine (isSpaced_endLine_of_ofLine h).isLine, List.append_assoc]
  rfl

end Opening

/-! ## Other lines as they are read -/

theorem isPlain_rewritten {l : String} (h : IsPlain l) : IsPlain (rewritten l) := by
  rw [rewritten]
  split_ifs with hl
  · decide
  · exact h

theorem plainNode_rewritten (l : String) : plainNode (rewritten l) = plainNode l := by
  rw [rewritten]
  split_ifs with hl
  · subst hl
    rfl
  · rfl

/-- The lines that nodes are written as are read as these nodes. -/
theorem ReadAs.linesAll {ls : List String} {ns : List Node} (h : ReadAs ls ns)
    (hls : ∀ l ∈ ls, IsLine l) : ReadAs (linesAll 0 ns) ns := by
  induction h with
  | nil => exact .nil
  | @plain l ls ns hplain _ ih =>
    obtain ⟨hl, hls⟩ := List.forall_mem_cons.mp hls
    rw [Node.linesAll, lines_plainNode hl, List.singleton_append, ← plainNode_rewritten l]
    exact .plain (isPlain_rewritten hplain) (ih hls)
  | @sect first last name written attributes body ls children ns hfirst _ hlast hname _ ihbody ih =>
    rw [List.forall_mem_cons, List.forall_mem_append, List.forall_mem_cons] at hls
    obtain ⟨-, hbody, -, hls⟩ := hls
    have htrim : Text.trim name = name := by
      rw [Text.trim, Text.Chars.trim_of_isSolid (isSolid_name_of_ofLine hfirst),
        String.ofList_toList]
    rw [Node.linesAll, lines_of_ofLine hfirst, List.cons_append, List.append_assoc,
      List.singleton_append]
    exact .sect (ofLine_beginLine_of_ofLine hfirst) (ihbody hbody) (ofLine_endLine name) htrim
      (ih hls)

theorem return_not_mem_of_isSpaced {s : String} (h : IsSpaced s) : '\r' ∉ s.toList :=
  fun hmem => absurd (h _ hmem) (by decide)

/-- Writing brings no carriage returns in. -/
theorem ReadAs.return_not_mem {ls : List String} {ns : List Node} (h : ReadAs ls ns)
    (hls : ∀ l ∈ ls, IsLine l ∧ '\r' ∉ l.toList) :
    ∀ l ∈ Node.linesAll 0 ns, '\r' ∉ l.toList := by
  induction h with
  | nil => simp [Node.linesAll]
  | @plain l ls ns _ _ ih =>
    obtain ⟨⟨hl, hreturn⟩, hls⟩ := List.forall_mem_cons.mp hls
    rw [Node.linesAll, lines_plainNode hl, List.singleton_append, List.forall_mem_cons]
    refine ⟨?_, ih hls⟩
    rw [rewritten]
    split_ifs
    · decide
    · exact hreturn
  | @sect first last name written attributes body ls children ns hfirst _ _ _ _ ihbody ih =>
    rw [List.forall_mem_cons, List.forall_mem_append, List.forall_mem_cons] at hls
    obtain ⟨-, hbody, -, hls⟩ := hls
    rw [Node.linesAll, lines_of_ofLine hfirst, List.forall_mem_append, List.forall_mem_cons,
      List.forall_mem_append, List.forall_mem_singleton]
    exact ⟨⟨return_not_mem_of_isSpaced (isSpaced_beginLine_of_ofLine hfirst), ihbody hbody,
      return_not_mem_of_isSpaced (isSpaced_endLine_of_ofLine hfirst)⟩, ih hls⟩

/-! ## Documents -/

/-- The document of some lines and the nodes they are read as : a first line that names an
interpreter belongs to the document. -/
def documentOf : List String → List Node → Node
  | l :: _, n :: ns =>
    if isInterpreterLine l then document (some l) ns else document none (n :: ns)
  | _, ns => document none ns

theorem isPlain_of_isInterpreterLine {l : String} (h : isInterpreterLine l = true) : IsPlain l := by
  obtain ⟨rest, hrest⟩ := Option.isSome_iff_exists.mp h
  have hl : l = "#!" ++ rest := Text.after?_eq_some.mp hrest
  have hhead : "#!".toList.head? = some '#' := rfl
  subst hl
  rw [IsPlain, trimStart_append hhead (by decide), Text.after?, Text.after?, String.toList_append]
  exact ⟨rfl, rfl⟩

theorem readAs_cons_iff {l : String} {ls : List String} {ns : List Node} (hl : IsPlain l) :
    ReadAs (l :: ls) ns ↔ ∃ os, ns = plainNode l :: os ∧ ReadAs ls os := by
  constructor
  · intro h
    cases h with
    | plain _ hls => exact ⟨_, rfl, hls⟩
    | sect hfirst => cases (ofLine_of_isPlain hl).symm.trans hfirst
  · rintro ⟨os, rfl, hls⟩
    exact .plain hl hls

theorem documentOf_cons {l : String} {ls : List String} {ns : List Node}
    (hl : isInterpreterLine l = false) (h : ReadAs (l :: ls) ns) :
    documentOf (l :: ls) ns = document none ns := by
  cases ns with
  | nil => rfl
  | cons n ns =>
    rw [documentOf, hl]
    rfl

/-- A script is read as the document of its lines. -/
theorem parse_eq_ok_iff {text : String} {d : Node} :
    parse text = .ok d ↔
      ∃ ns, ReadAs (Text.lines text) ns ∧ d = documentOf (Text.lines text) ns := by
  rw [parse]
  cases hlines : Text.lines text with
  | nil =>
    simp only [map_eq_ok, parseLines_eq_ok_iff]
    exact exists_congr fun ns => and_congr_right fun _ => eq_comm
  | cons l ls =>
    cases hl : isInterpreterLine l with
    | true =>
      simp only [hl, if_true, map_eq_ok, parseLines_eq_ok_iff,
        readAs_cons_iff (isPlain_of_isInterpreterLine hl)]
      constructor
      · rintro ⟨ns, hns, rfl⟩
        exact ⟨_, ⟨ns, rfl, hns⟩, by rw [documentOf, if_pos hl]⟩
      · rintro ⟨_, ⟨ns, rfl, hns⟩, rfl⟩
        exact ⟨ns, hns, by rw [documentOf, if_pos hl]⟩
    | false =>
      simp only [hl, Bool.false_eq_true, if_false, map_eq_ok, parseLines_eq_ok_iff]
      refine exists_congr fun ns => and_congr_right fun hns => ?_
      rw [documentOf_cons hl hns]
      exact eq_comm

/-- The reader fails exactly if the markers of the lines do not nest. A line that names an
interpreter is no marker anyway (`isPlain_of_isInterpreterLine`). -/
theorem parse_fails_iff {text : String} :
    (∃ e, parse text = .error e) ↔ Misnests (Text.lines text) := by
  have hok : (∃ d, parse text = .ok d) ↔ IsNested (Text.lines text) := by
    simp only [parse_eq_ok_iff, isNested_iff]
    constructor
    · rintro ⟨d, ns, hns, -⟩
      exact ⟨ns, hns⟩
    · rintro ⟨ns, hns⟩
      exact ⟨_, ns, hns, rfl⟩
  rw [misnests_iff, ← hok]
  cases parse text <;> simp

theorem not_isInterpreterLine_rewritten {l : String} (h : isInterpreterLine l = false) :
    isInterpreterLine (rewritten l) = false := by
  rw [rewritten]
  split_ifs
  · decide
  · exact h

theorem not_isInterpreterLine_beginLine (name : String) (attributes : List (String × String)) :
    isInterpreterLine (beginLine name attributes) = false := by
  rw [isInterpreterLine, beginLine, String.append_assoc, Text.after?, String.toList_append]
  rfl

section Documents

variable {ls : List String} {ns : List Node} (h : ReadAs ls ns) (hls : ∀ l ∈ ls, IsLine l)
include h hls

/-- A document is written as its nodes are, its interpreter counted. -/
theorem lines_documentOf : (documentOf ls ns).lines 0 = linesAll 0 ns := by
  cases ls with
  | nil =>
    cases h
    rfl
  | cons l ls =>
    cases hl : isInterpreterLine l with
    | true =>
      obtain ⟨os, rfl, -⟩ := (readAs_cons_iff (isPlain_of_isInterpreterLine hl)).mp h
      have hne : l ≠ "# " := by
        rintro rfl
        exact absurd hl (by decide)
      have hline := hls l List.mem_cons_self
      rw [documentOf, if_pos hl, document, Node.lines.eq_def, Node.linesAll, lines_plainNode hline,
        rewritten, if_neg hne]
      simp only [textLines_of_isLine hline]
    | false =>
      rw [documentOf_cons hl h, document, Node.lines.eq_def]
      rfl

/-- The lines that nodes are written as make the same document. -/
theorem documentOf_linesAll : documentOf (linesAll 0 ns) ns = documentOf ls ns := by
  have hread := h.linesAll hls
  cases ls with
  | nil =>
    cases h
    rfl
  | cons l ls =>
    cases hl : isInterpreterLine l with
    | true =>
      obtain ⟨os, rfl, -⟩ := (readAs_cons_iff (isPlain_of_isInterpreterLine hl)).mp h
      have hne : l ≠ "# " := by
        rintro rfl
        exact absurd hl (by decide)
      rw [Node.linesAll, lines_plainNode (hls l List.mem_cons_self), rewritten, if_neg hne,
        List.singleton_append, documentOf, documentOf, if_pos hl]
    | false =>
      rw [documentOf_cons hl h]
      cases h with
      | plain hplain hrest =>
        rw [Node.linesAll, lines_plainNode (hls l List.mem_cons_self), List.singleton_append]
          at hread ⊢
        exact documentOf_cons (not_isInterpreterLine_rewritten hl) hread
      | sect hfirst _ _ _ _ =>
        rw [Node.linesAll, lines_of_ofLine hfirst, List.cons_append] at hread ⊢
        exact documentOf_cons (not_isInterpreterLine_beginLine _ _) hread

end Documents

/-- A document that was read is read again as itself from what it is written as. -/
theorem parse_render_of_parse {text : String} (htext : '\r' ∉ text.toList) {d : Node}
    (h : parse text = .ok d) : parse d.render = .ok d := by
  obtain ⟨ns, hread, rfl⟩ := parse_eq_ok_iff.mp h
  have hls : ∀ l ∈ Text.lines text, IsLine l ∧ '\r' ∉ l.toList := fun l hl =>
    ⟨Text.isLine_of_mem_lines hl, Text.not_mem_of_mem_lines htext hl⟩
  have hline : ∀ l ∈ Text.lines text, IsLine l := fun l hl => (hls l hl).1
  have hlines : Text.lines (documentOf (Text.lines text) ns).render = linesAll 0 ns := by
    rw [Node.render, lines_documentOf hread hline,
      Text.lines_unlines fun l hl => Node.isLine_of_mem_linesAll ns hl]
    have hsame : ∀ l ∈ linesAll 0 ns, asRead l = l := fun l hl =>
      asRead_eq_self fun hlast => hread.return_not_mem hls l hl (List.mem_of_getLast? hlast)
    exact (List.map_congr_left hsame).trans (List.map_id _)
  rw [parse_eq_ok_iff, hlines]
  exact ⟨ns, hread.linesAll hline, (documentOf_linesAll hread hline).symm⟩

/-- A text without carriage returns is refused exactly if its section markers do not nest, and a
document that it is read as is read again from what it is written as. -/
theorem parse_normalises (text : String) (htext : '\r' ∉ text.toList) :
    ((∃ e, parse text = .error e) ↔ Misnests (Text.lines text)) ∧
      ∀ d, parse text = .ok d → parse d.render = .ok d :=
  ⟨parse_fails_iff, fun _ h => parse_render_of_parse htext h⟩

/-- A script with markers off the margin, a key that is given twice, a lone mark with a blank
behind it, and no line end behind its last line. -/
def untidyScript : String :=
  "#!/bin/sh\n  # >>> outer  b=2 a=1 b=3 x\n# \n\t# >>> inner\n  echo\n\n# <<<  inner \n # <<< outer"

/-- What the script is written as. -/
def tidyScript : String :=
  "#!/bin/sh\n# >>> outer a=1 b=3\n#\n# >>> inner\n  echo\n\n# <<< inner\n# <<< outer\n"

theorem parse_normalises_untidy :
    '\r' ∉ untidyScript.toList ∧ ¬Misnests (Text.lines untidyScript) ∧
      ∃ d, parse untidyScript = .ok d ∧ d.render = tidyScript ∧ parse d.render = .ok d := by
  have htext : '\r' ∉ untidyScript.toList := by decide
  obtain ⟨hfails, hfixed⟩ := parse_normalises untidyScript htext
  have hparse : (parse untidyScript).toOption.map Node.render = some tidyScript := by
    decide +kernel
  obtain ⟨d, hd, hrender⟩ := Option.map_eq_some_iff.mp hparse
  have hok : parse untidyScript = .ok d := by
    cases hresult : parse untidyScript with
    | error e => rw [hresult] at hd; cases hd
    | ok d' => rw [hresult] at hd; cases hd; rfl
  refine ⟨htext, fun hmisnests => ?_, d, hok, hrender, hfixed d hok⟩
  obtain ⟨e, he⟩ := hfails.mpr hmisnests
  cases he.symm.trans hok

end NetworkCompiler.Script
