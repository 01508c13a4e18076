import NetworkCompiler.Proofs.Results
import NetworkCompiler.Proofs.Text.Lines
import NetworkCompiler.Script.Parser

/-!
# Lines of scripts read back

A line of a script is read for itself (`IsPlain`), or it opens or closes a section. Markers that
were written for a section with a name and attributes that are words (`IsMarked`) are read as what
they say (`ofLine_beginLine`, `ofLine_endLine`), and lines between them become nodes that are
written as the lines were, but for a blank behind a lone mark (`lines_plainNode`). A script that is
read at all has as many sections as lines that open one (`parseLines_counts`).
-/

namespace NetworkCompiler.Script

open Text (IsLine isLine_append)
open Text.Chars (splitAt_of_not_mem)

/-! ## Lines of trees -/

theorem isLine_margin (depth : Nat) : IsLine (margin depth) := by
  induction depth with
  | zero => decide
  | succ depth ih => exact isLine_append (by decide) ih

theorem isLine_of_mem_textLines {depth : Nat} {text l : String} (h : l ∈ textLines depth text) :
    IsLine l := by
  have hpieces : ∀ p ∈ Text.splitAt '\n' text, IsLine p := by
    refine List.forall_mem_map.mpr fun cs hcs => ?_
    rw [IsLine, String.toList_ofList]
    exact Text.Chars.not_mem_of_mem_splitAt hcs
  rw [textLines] at h
  split at h
  · cases h
  · next first rest hsplit =>
    rw [hsplit] at hpieces
    obtain ⟨hfirst, hrest⟩ := List.forall_mem_cons.mp hpieces
    rcases List.mem_cons.mp h with rfl | h
    · split
      · exact hfirst
      · exact isLine_append (isLine_margin depth) hfirst
    · exact hrest l h

theorem textLines_of_isLine {text : String} (h : IsLine text) : textLines 0 text = [text] := by
  rw [textLines, Text.splitAt, splitAt_of_not_mem h]
  simp [margin]

namespace Node

mutual

theorem isLine_of_mem_lines {depth : Nat} (n : Node) {l : String} (h : l ∈ n.lines depth) :
    IsLine l := by
  obtain ⟨kind, name, attributes, text, close, children⟩ := n
  cases kind with
  | document =>
    rw [lines.eq_def, List.mem_append] at h
    rcases h with h | h
    · split at h
      · exact isLine_of_mem_textLines h
      · cases h
    · exact isLine_of_mem_linesAll children h
  | sect =>
    rw [lines, List.mem_append, List.mem_append] at h
    rcases h with (h | h) | h
    · exact isLine_of_mem_textLines h
    · exact isLine_of_mem_linesAll children h
    · exact isLine_of_mem_textLines h
  | block =>
    rw [lines.eq_def, List.mem_append, List.mem_append] at h
    rcases h with (h | h) | h
    · split at h
      · exact isLine_of_mem_textLines h
      · cases h
    · exact isLine_of_mem_linesAll children h
    · split at h
      · exact isLine_of_mem_textLines h
      · cases h
  | line =>
    rw [lines] at h
    exact isLine_of_mem_textLines h
  | comment =>
    rw [lines] at h
    obtain ⟨remark, -, h⟩ := List.mem_flatMap.mp h
    exact isLine_of_mem_textLines h
  | blank =>
    rw [lines, List.mem_singleton] at h
    subst h
    decide

theorem isLine_of_mem_linesAll {depth : Nat} (ns : List Node) {l : String}
    (h : l ∈ linesAll depth ns) : IsLine l := by
  cases ns with
  | nil => simp [linesAll] at h
  | cons n ns =>
    rw [linesAll, List.mem_append] at h
    rcases h with h | h
    · exact isLine_of_mem_lines n h
    · exact isLine_of_mem_linesAll ns h

end

end Node

/-! ## Shapes of lines -/

/-- A line that the reader takes for itself. -/
def IsPlain (l : String) : Prop :=
  Text.after? sectionBegin (Text.trimStart l) = none ∧
    Text.after? sectionEnd (Text.trimStart l) = none

/-- A line that is read for itself and is written again as it was : it is no marker, its end is
not taken for a part of the line end, and no blank behind a lone mark gets lost. -/
structure IsVerbatim (l : String) : Prop where
  plain : IsPlain l
  ending : l.toList.getLast? ≠ some '\r'
  remark : l ≠ "# "

instance (l : String) : Decidable (IsPlain l) :=
  inferInstanceAs (Decidable (_ ∧ _))

instance (l : String) : Decidable (IsVerbatim l) :=
  decidable_of_iff (IsPlain l ∧ l.toList.getLast? ≠ some '\r' ∧ l ≠ "# ")
    ⟨fun h => ⟨h.1, h.2.1, h.2.2⟩, fun h => ⟨h.plain, h.ending, h.remark⟩⟩

theorem ofLine_of_isPlain {l : String} (h : IsPlain l) :
    LineShape.ofLine l = .plain (plainNode l) := by
  rw [LineShape.ofLine, h.1, h.2]

theorem exists_openingOf (marker : String) :
    ∃ name attributes, openingOf marker = .opening name attributes := by
  rw [openingOf]
  split <;> exact ⟨_, _, rfl⟩

/-- A line that is not taken for itself opens or closes a section. -/
theorem ofLine_cases (l : String) :
    (¬IsPlain l ∧ ((∃ name attributes, LineShape.ofLine l = .opening name attributes) ∨
      ∃ written, LineShape.ofLine l = .closing written)) ∨ IsPlain l := by
  rw [IsPlain, LineShape.ofLine]
  cases Text.after? sectionBegin (Text.trimStart l) with
  | some marker => exact .inl ⟨nofun, .inl (exists_openingOf marker)⟩
  | none =>
    cases Text.after? sectionEnd (Text.trimStart l) with
    | some rest => exact .inl ⟨nofun, .inr ⟨rest, rfl⟩⟩
    | none => exact .inr ⟨rfl, rfl⟩

/-- A section whose markers can be read : its name is a word, and so are its attributes. -/
structure IsMarked (n : Node) : Prop where
  kind : n.kind = .sect
  name : n.name.toList ≠ [] ∧ Text.Chars.IsSolid n.name.toList
  keys : ∀ e ∈ n.attributes, '=' ∉ e.1.toList ∧ Text.Chars.IsSolid e.1.toList
  values : ∀ e ∈ n.attributes, Text.Chars.IsSolid e.2.toList
  /-- The keys ascend. -/
  sorted : Dictionary.ofList n.attributes = n.attributes

theorem trimStart_append {start : String} {c : Char} (hhead : start.toList.head? = some c)
    (hc : Text.isBlank c = false) (s : String) : Text.trimStart (start ++ s) = start ++ s := by
  obtain ⟨cs, hcs⟩ := List.head?_eq_some_iff.mp hhead
  rw [Text.trimStart, String.toList_append, hcs, List.cons_append, Text.Chars.trimStart_cons hc,
    ← List.cons_append, ← hcs, ← String.toList_append, String.ofList_toList]

theorem ofLine_endLine (name : String) :
    LineShape.ofLine (sectionEnd ++ name) = .closing name := by
  have hhead : sectionEnd.toList.head? = some '#' := rfl
  have hbegin : Text.after? sectionBegin (sectionEnd ++ name) = none := by
    rw [Text.after?, String.toList_append]
    rfl
  rw [LineShape.ofLine, trimStart_append hhead (by decide), hbegin, Text.after?_eq_some.mpr rfl]

/-- A line is no marker if it begins with neither a blank nor the mark of remarks. -/
theorem isPlain_of_head {l : String} {c : Char} (hhead : l.toList.head? = some c)
    (hblank : Text.isBlank c = false) (hc : c ≠ '#') : IsPlain l := by
  obtain ⟨cs, hcs⟩ := List.head?_eq_some_iff.mp hhead
  have hstart : (Text.trimStart l).toList = c :: cs := by
    rw [Text.trimStart, String.toList_ofList, hcs, Text.Chars.trimStart_cons hblank]
  have hnone : ∀ mark : List Char, Text.Chars.after? ('#' :: mark) (c :: cs) = none := by
    intro mark
    rw [Text.Chars.after?, if_neg (Ne.symm hc)]
  rw [IsPlain, Text.after?, Text.after?, hstart]
  exact ⟨congrArg (Option.map _) (hnone _), congrArg (Option.map _) (hnone _)⟩

theorem lines_line {text : String} (h : IsLine text) : (Node.line text).lines 0 = [text] := by
  rw [Node.line, Node.lines, Option.getD_some, textLines_of_isLine h]

section Markers

variable {n : Node} (h : IsMarked n)
include h

/-- The words behind an opening mark are the name and the attributes. -/
theorem words_marker :
    Text.words (n.name ++ String.join (n.attributes.map fun (k, v) => " " ++ k ++ "=" ++ v)) =
      n.name :: n.attributes.map fun e => e.1 ++ "=" ++ e.2 := by
  have hwords : ∀ w ∈ n.name.toList :: n.attributes.map (fun e => (e.1 ++ "=" ++ e.2).toList),
      w ≠ [] ∧ Text.Chars.IsSolid w := by
    refine List.forall_mem_cons.mpr ⟨h.name, List.forall_mem_map.mpr fun e he => ?_⟩
    rw [String.toList_append, String.toList_append]
    refine ⟨by simp, fun c hc => ?_⟩
    rw [List.mem_append, List.mem_append] at hc
    rcases hc with (hc | hc) | hc
    · exact (h.keys e he).2 c hc
    · rw [List.mem_singleton.mp hc]
      decide
    · exact h.values e he c hc
  have hmarker : (n.name ++ String.join (n.attributes.map
      fun (k, v) => " " ++ k ++ "=" ++ v)).toList =
      n.name.toList ++
        (n.attributes.map fun e => (e.1 ++ "=" ++ e.2).toList).flatMap (' ' :: ·) := by
    rw [String.toList_append, String.toList_join, List.flatMap_map, List.flatMap_map]
    simp
  rw [Text.words, hmarker, Text.Chars.words_append_flatMap hwords, List.map_cons, List.map_map,
    String.ofList_toList]
  exact congrArg (n.name :: ·) (List.map_congr_left fun e _ => String.ofList_toList)

theorem filterMap_attribute? :
    (n.attributes.map fun e => e.1 ++ "=" ++ e.2).filterMap attribute? = n.attributes := by
  have hattribute : ∀ e ∈ n.attributes, attribute? (e.1 ++ "=" ++ e.2) = some e := by
    intro e he
    have htext : (e.1 ++ "=" ++ e.2).toList = e.1.toList ++ '=' :: e.2.toList := by simp
    rw [attribute?, Text.cutAt?, htext, Text.Chars.cutAt?_append_cons (h.keys e he).1]
    simp
  rw [List.filterMap_map]
  exact (List.filterMap_congr hattribute).trans List.filterMap_some

theorem ofLine_beginLine :
    LineShape.ofLine (beginLine n.name n.attributes) = .opening n.name n.attributes := by
  have hhead : sectionBegin.toList.head? = some '#' := rfl
  rw [LineShape.ofLine, beginLine, String.append_assoc, trimStart_append hhead (by decide),
    Text.after?_eq_some.mpr rfl]
  change openingOf _ = _
  rw [openingOf, words_marker h]
  change LineShape.opening _ (Dictionary.ofList (List.filterMap attribute? _)) = _
  rw [filterMap_attribute? h, h.sorted]

end Markers

/-! ## Lines between markers -/

/-- How a line that is no marker is written again : a blank behind a lone mark gets lost. -/
def rewritten (l : String) : String :=
  if l = "# " then "#" else l

theorem lines_comment {remark : String} (h : IsLine remark) :
    (Node.comment remark).lines 0 = [if remark = "" then "#" else "# " ++ remark] := by
  rw [Node.comment, Node.lines, Option.getD_some, remarkLines]
  by_cases hempty : remark = ""
  · subst hempty
    decide
  · have hne : remark.toList ≠ [] := by simpa using hempty
    have hlines : Text.lines remark = [remark] := by
      rw [Text.lines, Text.Chars.lines, splitAt_of_not_mem h]
      simp [hne]
    have hline : IsLine ("# " ++ remark) := isLine_append (by decide) h
    simp [hempty, hlines, remarkLine, textLines_of_isLine hline]

theorem lines_plainNode {l : String} (h : IsLine l) : (plainNode l).lines 0 = [rewritten l] := by
  rw [plainNode]
  split
  · next hempty =>
    rw [String.isEmpty_iff.mp hempty]
    decide
  split
  · next hmark =>
    subst hmark
    decide
  split
  · next remark hremark =>
    have htext : l = "# " ++ remark := Text.after?_eq_some.mp hremark
    have hline : IsLine remark := fun hmem => h (by
      rw [htext, String.toList_append]
      exact List.mem_append_right _ hmem)
    rw [lines_comment hline, rewritten, htext]
    simp
  · next hmark hnone =>
    have hl : l ≠ "# " := by
      rintro rfl
      exact absurd hnone (by decide)
    rw [rewritten, if_neg hl, lines_line h]

/-! ## Reading lines -/

variable {total lineNo : Nat} {top : List Node}

theorem parseLines_opening {stack : List OpenSection} {l : String} {ls : List String}
    {name : String} {attributes : Dictionary String String}
    (h : LineShape.ofLine l = .opening name attributes) :
    parseLines total lineNo stack top (l :: ls) =
      parseLines total (lineNo + 1) (⟨name, attributes, []⟩ :: stack) top ls := by
  rw [parseLines.eq_def]
  simp only [h]

/-- The lines of a section at the margin, with a body between its markers. -/
def sectionLines (n : Node) (body : List String) : List String :=
  beginLine n.name n.attributes :: (body ++ [sectionEnd ++ n.name])

/-- What a section with a body between its markers is read as. -/
def reread (n : Node) (body : List String) : Node :=
  { kind := .sect, name := n.name, attributes := n.attributes, children := body.map plainNode }

/-! ## Counting sections -/

/-- All sections in some trees, at any depth. -/
def allSections (ns : List Node) : List Node :=
  ((Node.preorderAll 0 ns).map (·.2)).filter Node.isSection

/-- Whether a line opens a section. -/
def isOpening (l : String) : Bool :=
  match LineShape.ofLine l with
  | .opening _ _ => true
  | _ => false

/-- Whether a line closes a section. -/
def isClosing (l : String) : Bool :=
  match LineShape.ofLine l with
  | .closing _ => true
  | _ => false

theorem isPlain_iff {l : String} : IsPlain l ↔ isOpening l = false ∧ isClosing l = false := by
  rw [isOpening, isClosing]
  rcases ofLine_cases l with ⟨hplain, ⟨name, attributes, h⟩ | ⟨written, h⟩⟩ | h
  · simp [h, hplain]
  · simp [h, hplain]
  · simp [ofLine_of_isPlain h, h]

mutual

theorem map_preorder (d e : Nat) (n : Node) :
    (n.preorder d).map (·.2) = (n.preorder e).map (·.2) := by
  obtain ⟨kind, name, attributes, text, close, children⟩ := n
  rw [Node.preorder, Node.preorder, List.map_cons, List.map_cons,
    map_preorderAll (d + 1) (e + 1) children]

theorem map_preorderAll (d e : Nat) (ns : List Node) :
    (Node.preorderAll d ns).map (·.2) = (Node.preorderAll e ns).map (·.2) := by
  cases ns with
  | nil => rfl
  | cons n ns =>
    rw [Node.preorderAll, Node.preorderAll, List.map_append, List.map_append,
      map_preorder d e n, map_preorderAll d e ns]

end

theorem filter_preorder (n : Node) :
    ((n.preorder 0).map (·.2)).filter Node.isSection =
      (if n.isSection then [n] else []) ++ allSections n.children := by
  obtain ⟨kind, name, attributes, text, close, children⟩ := n
  rw [Node.preorder, List.map_cons, map_preorderAll (0 + 1) 0, List.filter_cons]
  split <;> rfl

theorem allSections_nil : allSections [] = [] :=
  rfl

theorem allSections_cons (n : Node) (ns : List Node) :
    allSections (n :: ns) =
      (if n.isSection then [n] else []) ++ allSections n.children ++ allSections ns := by
  rw [allSections, Node.preorderAll, List.map_append, List.filter_append, filter_preorder]
  rfl

theorem allSections_append (ns ms : List Node) :
    allSections (ns ++ ms) = allSections ns ++ allSections ms := by
  induction ns with
  | nil => rfl
  | cons n ns ih =>
    rw [List.cons_append, allSections_cons, ih, allSections_cons, ← List.append_assoc]

theorem length_allSections_reverse (ns : List Node) :
    (allSections ns.reverse).length = (allSections ns).length := by
  induction ns with
  | nil => rfl
  | cons n ns ih =>
    rw [List.reverse_cons, allSections_append, List.length_append, ih, Nat.add_comm,
      ← List.length_append, ← allSections_append, List.singleton_append]

theorem length_allSections_close (o : OpenSection) (ns : List Node) :
    (allSections (o.close :: ns)).length =
      1 + (allSections o.children).length + (allSections ns).length := by
  rw [allSections_cons, List.length_append, List.length_append,
    ← length_allSections_reverse o.children]
  rfl

theorem plainNode_leaf (l : String) :
    (plainNode l).isSection = false ∧ (plainNode l).children = [] := by
  rw [plainNode]
  split
  · exact ⟨rfl, rfl⟩
  split
  · exact ⟨rfl, rfl⟩
  split <;> exact ⟨rfl, rfl⟩

theorem allSections_plainNode (l : String) (ns : List Node) :
    allSections (plainNode l :: ns) = allSections ns := by
  rw [allSections_cons, (plainNode_leaf l).1, (plainNode_leaf l).2, allSections_nil]
  rfl

theorem eq_plainNode_of_ofLine {l : String} {n : Node} (h : LineShape.ofLine l = .plain n) :
    n = plainNode l := by
  rcases ofLine_cases l with ⟨-, ⟨name, attributes, hl⟩ | ⟨written, hl⟩⟩ | hl
  · cases hl.symm.trans h
  · cases hl.symm.trans h
  · exact (LineShape.plain.inj ((ofLine_of_isPlain hl).symm.trans h)).symm

/-- How many sections are open, counted with those that are closed in them. -/
@[simp]
def openSections : List OpenSection → Nat
  | [] => 0
  | o :: os => 1 + (allSections o.children).length + openSections os

/-- A script that is read has a section for each line that opens one, and each is closed. -/
theorem parseLines_counts {stack : List OpenSection} {ls : List String} {ns : List Node}
    (h : parseLines total lineNo stack top ls = .ok ns) :
    (allSections ns).length =
        (allSections top).length + openSections stack + ls.countP isOpening ∧
    ls.countP isOpening + stack.length = ls.countP isClosing := by
  fun_induction parseLines total lineNo stack top ls with
  | case1 =>
    cases h
    simp [length_allSections_reverse]
  | case2 => cases h
  | case3 lineNo top raw rest name attributes stack hshape ih =>
    obtain ⟨hsections, hmarks⟩ := ih h
    simp [isOpening, isClosing, hshape, allSections_nil] at hsections hmarks ⊢
    omega
  | case4 => cases h
  | case5 lineNo top raw rest written o hshape hname ih =>
    obtain ⟨hsections, hmarks⟩ := ih h
    simp [isOpening, isClosing, hshape, length_allSections_close] at hsections hmarks ⊢
    omega
  | case6 lineNo top raw rest written o hshape hname p stack ih =>
    obtain ⟨hsections, hmarks⟩ := ih h
    simp [isOpening, isClosing, hshape, length_allSections_close] at hsections hmarks ⊢
    omega
  | case7 => cases h
  | case8 lineNo top raw rest node hshape ih =>
    obtain ⟨hsections, hmarks⟩ := ih h
    rw [eq_plainNode_of_ofLine hshape, allSections_plainNode] at hsections
    simp [isOpening, isClosing, hshape] at hsections hmarks ⊢
    omega
  | case9 lineNo top raw rest node o stack hshape ih =>
    obtain ⟨hsections, hmarks⟩ := ih h
    rw [eq_plainNode_of_ofLine hshape] at hsections
    simp [isOpening, isClosing, hshape, allSections_plainNode] at hsections hmarks ⊢
    omega

end NetworkCompiler.Script
