import NetworkCompiler.Proofs.Script.Reading

/-!
# The grammar of scripts

Lines nest (`IsNested`) if behind every line that opens a section stand lines that nest and then a
line that closes a section of the same name. `ReadAs` is the same grammar with the nodes that the
lines stand for. The reader follows it, although it goes line by line with a stack of open
sections : it returns exactly the nodes of the grammar (`parseLines_eq_ok_iff`), and it fails
exactly if the markers do not nest (`parseLines_fails_iff`). What carries the proof is `Consumed`,
which says what lines led to a stack.
-/

namespace NetworkCompiler.Script

/-! ## Markers -/

/-- A line that opens a section : behind its margin stands the mark, and the name is the first
word behind the mark. -/
def Opens (l name : String) : Prop :=
  ∃ marker, Text.trimStart l = sectionBegin ++ marker ∧ (Text.words marker).headD "" = name

/-- A line that closes a section : behind its margin stands the mark, and behind the mark the
name. -/
def Closes (l name : String) : Prop :=
  ∃ written, Text.trimStart l = sectionEnd ++ written ∧ Text.trim written = name

/-- Lines whose markers nest. -/
inductive IsNested : List String → Prop where
  | nil : IsNested []
  | plain {l : String} {ls : List String} : IsPlain l → IsNested ls → IsNested (l :: ls)
  | sect {first last name : String} {body ls : List String} :
      Opens first name → IsNested body → Closes last name → IsNested ls →
        IsNested (first :: (body ++ last :: ls))

/-- Lines whose markers do not nest. -/
inductive Misnests : List String → Prop where
  /-- A line closes a section, and none is open. -/
  | endWithoutBegin {before after : List String} {l name : String} :
      IsNested before → Closes l name → Misnests (before ++ l :: after)
  /-- A line closes a section of another name than the innermost open one. -/
  | endMismatch {outer body after : List String} {first last opened name : String} :
      Opens first opened → IsNested body → Closes last name → name ≠ opened →
        Misnests (outer ++ first :: (body ++ last :: after))
  /-- A section is still open at the end. -/
  | unclosed {outer body : List String} {first name : String} :
      Opens first name → IsNested body → Misnests (outer ++ first :: body)

/-- Lines, and the nodes they are read as. -/
inductive ReadAs : List String → List Node → Prop where
  | nil : ReadAs [] []
  | plain {l : String} {ls : List String} {ns : List Node} :
      IsPlain l → ReadAs ls ns → ReadAs (l :: ls) (plainNode l :: ns)
  | sect {first last name written : String} {attributes : Dictionary String String}
      {body ls : List String} {children ns : List Node} :
      LineShape.ofLine first = .opening name attributes → ReadAs body children →
      LineShape.ofLine last = .closing written → Text.trim written = name → ReadAs ls ns →
        ReadAs (first :: (body ++ last :: ls))
          ({ kind := .sect, name := name, attributes := attributes, children := children } :: ns)

theorem after?_sectionBegin_sectionEnd (s : String) :
    Text.after? sectionBegin (sectionEnd ++ s) = none := by
  rw [Text.after?, String.toList_append]
  rfl

theorem opens_iff {l name : String} :
    Opens l name ↔ ∃ attributes, LineShape.ofLine l = .opening name attributes := by
  constructor
  · rintro ⟨marker, hstart, hname⟩
    rw [LineShape.ofLine, Text.after?_eq_some.mpr hstart]
    change ∃ attributes, openingOf marker = _
    rw [openingOf]
    cases hwords : Text.words marker with
    | nil =>
      rw [hwords, List.headD_nil] at hname
      subst hname
      exact ⟨_, rfl⟩
    | cons word words =>
      rw [hwords, List.headD_cons] at hname
      subst hname
      exact ⟨_, rfl⟩
  · rintro ⟨attributes, h⟩
    rw [LineShape.ofLine] at h
    cases hbegin : Text.after? sectionBegin (Text.trimStart l) with
    | none =>
      rw [hbegin] at h
      cases hend : Text.after? sectionEnd (Text.trimStart l) <;> rw [hend] at h <;> cases h
    | some marker =>
      rw [hbegin] at h
      refine ⟨marker, Text.after?_eq_some.mp hbegin, ?_⟩
      change openingOf marker = _ at h
      rw [openingOf] at h
      cases hwords : Text.words marker <;> rw [hwords] at h <;> cases h <;> rfl

theorem closes_iff {l name : String} :
    Closes l name ↔ ∃ written, LineShape.ofLine l = .closing written ∧ Text.trim written = name := by
  refine exists_congr fun written => and_congr_left' ?_
  constructor
  · intro hstart
    rw [LineShape.ofLine, hstart, after?_sectionBegin_sectionEnd, Text.after?_eq_some.mpr rfl]
  · intro h
    rw [LineShape.ofLine] at h
    cases hbegin : Text.after? sectionBegin (Text.trimStart l) with
    | some marker =>
      obtain ⟨opened, attributes, hopening⟩ := exists_openingOf marker
      rw [hbegin] at h
      cases hopening.symm.trans h
    | none =>
      rw [hbegin] at h
      cases hend : Text.after? sectionEnd (Text.trimStart l) with
      | none =>
        rw [hend] at h
        cases h
      | some rest =>
        rw [hend] at h
        cases h
        exact Text.after?_eq_some.mp hend

/-- Lines that nest are the ones that can be read. -/
theorem isNested_iff {ls : List String} : IsNested ls ↔ ∃ ns, ReadAs ls ns := by
  constructor
  · intro h
    induction h with
    | nil => exact ⟨_, .nil⟩
    | plain hplain _ ih =>
      obtain ⟨ns, hread⟩ := ih
      exact ⟨_, .plain hplain hread⟩
    | sect hopens _ hcloses _ ihbody ih =>
      obtain ⟨attributes, hfirst⟩ := opens_iff.mp hopens
      obtain ⟨written, hlast, hname⟩ := closes_iff.mp hcloses
      obtain ⟨children, hbody⟩ := ihbody
      obtain ⟨ns, hread⟩ := ih
      exact ⟨_, .sect hfirst hbody hlast hname hread⟩
  · rintro ⟨ns, h⟩
    induction h with
    | nil => exact .nil
    | plain hplain _ ih => exact .plain hplain ih
    | sect hfirst _ hlast hname _ ihbody ih =>
      exact .sect (opens_iff.mpr ⟨_, hfirst⟩) ihbody (closes_iff.mpr ⟨_, hlast, hname⟩) ih

theorem ReadAs.append {ls ms : List String} {ns os : List Node} (h : ReadAs ls ns)
    (hms : ReadAs ms os) : ReadAs (ls ++ ms) (ns ++ os) := by
  induction h with
  | nil => exact hms
  | plain hplain _ ih => exact .plain hplain ih
  | sect hfirst hbody hlast hname _ _ ih =>
    rw [List.cons_append, List.append_assoc]
    exact .sect hfirst hbody hlast hname ih

theorem ReadAs.of_isPlain {ls : List String} (h : ∀ l ∈ ls, IsPlain l) :
    ReadAs ls (ls.map plainNode) := by
  induction ls with
  | nil => exact .nil
  | cons l ls ih =>
    obtain ⟨hl, hls⟩ := List.forall_mem_cons.mp h
    exact .plain hl (ih hls)

/-- The lines of a section are read as the section, with what its body is read as. -/
theorem ReadAs.sectionLines {n : Node} (hn : IsMarked n) {ls : List String} {ns : List Node}
    (h : ReadAs ls ns) :
    ReadAs (sectionLines n ls)
      [{ kind := .sect, name := n.name, attributes := n.attributes, children := ns }] := by
  have hname : Text.trim n.name = n.name := by
    rw [Text.trim, Text.Chars.trim_of_isSolid hn.name.2, String.ofList_toList]
  exact .sect (ofLine_beginLine hn) h (ofLine_endLine n.name) hname .nil

/-- Sections whose bodies hold no markers are read one after the other. -/
theorem ReadAs.sections {ns : List Node} (hns : ∀ n ∈ ns, IsMarked n)
    {body : Node → List String} (h : ∀ n ∈ ns, ∀ l ∈ body n, IsPlain l) :
    ReadAs (ns.flatMap fun n => Script.sectionLines n (body n))
      (ns.map fun n => reread n (body n)) := by
  induction ns with
  | nil => exact .nil
  | cons n ns ih =>
    obtain ⟨hn, hns⟩ := List.forall_mem_cons.mp hns
    obtain ⟨hbody, h⟩ := List.forall_mem_cons.mp h
    exact ((ReadAs.of_isPlain hbody).sectionLines hn).append (ih hns h)

/-! ## Steps of the reader -/

/-- Where nodes that were read go : into the innermost open section, or into the document. -/
def received (ns : List Node) : List OpenSection → List Node → List OpenSection × List Node
  | [], top => ([], ns.reverse ++ top)
  | o :: stack, top => ({ o with children := ns.reverse ++ o.children } :: stack, top)

theorem received_nil (stack : List OpenSection) (top : List Node) :
    received [] stack top = (stack, top) := by
  cases stack <;> rfl

theorem received_append (ns os : List Node) (stack : List OpenSection) (top : List Node) :
    received (ns ++ os) stack top =
      received os (received ns stack top).1 (received ns stack top).2 := by
  cases stack <;> simp [received]

section Steps

variable {total lineNo : Nat} {stack : List OpenSection} {top : List Node} {o : OpenSection}
  {l written : String} {ls : List String}

theorem parseLines_plain (h : IsPlain l) :
    parseLines total lineNo stack top (l :: ls) =
      parseLines total (lineNo + 1) (received [plainNode l] stack top).1
        (received [plainNode l] stack top).2 ls := by
  rw [parseLines.eq_def]
  cases stack <;> simp [ofLine_of_isPlain h, received]

theorem parseLines_close (h : LineShape.ofLine l = .closing written)
    (hname : Text.trim written = o.name) :
    parseLines total lineNo (o :: stack) top (l :: ls) =
      parseLines total (lineNo + 1) (received [o.close] stack top).1
        (received [o.close] stack top).2 ls := by
  rw [parseLines.eq_def]
  cases stack <;> simp [h, hname, received]

theorem parseLines_endWithoutBegin (h : LineShape.ofLine l = .closing written) :
    parseLines total lineNo [] top (l :: ls) = .error ⟨lineNo, .endWithoutBegin written⟩ := by
  rw [parseLines.eq_def]
  simp [h]

theorem parseLines_endMismatch (h : LineShape.ofLine l = .closing written)
    (hname : Text.trim written ≠ o.name) :
    parseLines total lineNo (o :: stack) top (l :: ls) =
      .error ⟨lineNo, .endMismatch (Text.trim written) o.name⟩ := by
  rw [parseLines.eq_def]
  simp [h, Ne.symm hname]

theorem parseLines_unclosed :
    parseLines total lineNo (o :: stack) top [] = .error ⟨total, .unclosed o.name⟩ := by
  rw [parseLines.eq_def]

/-- Lines of the grammar are read as their nodes, whatever stands around them. -/
theorem parseLines_of_readAs {ns : List Node} (h : ReadAs ls ns) (rest : List String) :
    parseLines total lineNo stack top (ls ++ rest) =
      parseLines total (lineNo + ls.length) (received ns stack top).1 (received ns stack top).2
        rest := by
  induction h generalizing lineNo stack top rest with
  | nil => rw [received_nil]; rfl
  | @plain l ls ns hplain _ ih =>
    have hnodes : plainNode l :: ns = [plainNode l] ++ ns := rfl
    rw [List.cons_append, parseLines_plain hplain, ih, hnodes, received_append, List.length_cons]
    congr 1
    omega
  | @sect first last name written attributes body ls children ns hfirst _ hlast hname _ ihbody
      ih =>
    have hreceived : received children (⟨name, attributes, []⟩ :: stack) top =
        (⟨name, attributes, children.reverse⟩ :: stack, top) := by
      simp [received]
    have hclose : (OpenSection.mk name attributes children.reverse).close =
        { kind := .sect, name := name, attributes := attributes, children := children } := by
      simp [OpenSection.close]
    have hnodes : ∀ n : Node, n :: ns = [n] ++ ns := fun _ => rfl
    rw [List.cons_append, List.append_assoc, List.cons_append, parseLines_opening hfirst, ihbody,
      hreceived, parseLines_close hlast hname, ih, hclose, hnodes, received_append]
    congr 1
    simp only [List.length_cons, List.length_append]
    omega

/-- Lines are refused for themselves, or they lead to a stack. -/
theorem exists_run (ls : List String) :
    (∃ e, ∀ rest, parseLines total lineNo stack top (ls ++ rest) = .error e) ∨
      ∃ stack' top', ∀ rest, parseLines total lineNo stack top (ls ++ rest) =
        parseLines total (lineNo + ls.length) stack' top' rest := by
  induction ls generalizing lineNo stack top with
  | nil => exact Or.inr ⟨stack, top, fun rest => rfl⟩
  | cons l ls ih =>
    have hlength : lineNo + (l :: ls).length = lineNo + 1 + ls.length := by
      rw [List.length_cons]
      omega
    rw [hlength]
    simp only [List.cons_append]
    rcases ofLine_cases l with ⟨-, ⟨name, attributes, h⟩ | ⟨written, h⟩⟩ | h
    · simp only [parseLines_opening h]
      exact ih
    · cases stack with
      | nil => exact Or.inl ⟨_, fun rest => parseLines_endWithoutBegin h⟩
      | cons o stack =>
        by_cases hname : Text.trim written = o.name
        · simp only [parseLines_close h hname]
          exact ih
        · exact Or.inl ⟨_, fun rest => parseLines_endMismatch h hname⟩
    · simp only [parseLines_plain h]
      exact ih

end Steps

/-! ## Runs of the reader -/

/-- Lines that led to a stack of open sections and to the document's children so far : each open
section has a line that opened it, and lines behind it that were read as its children. -/
def Consumed (top : List Node) : List OpenSection → List String → Prop
  | [], before => ReadAs before top.reverse
  | o :: stack, before =>
    ∃ outer first body, before = outer ++ first :: body ∧
      LineShape.ofLine first = .opening o.name o.attributes ∧ ReadAs body o.children.reverse ∧
      Consumed top stack outer

section Runs

variable {total lineNo : Nat} {stack : List OpenSection} {top : List Node}
  {before ls : List String}

theorem Consumed.received {ns : List Node} (h : Consumed top stack before) (hls : ReadAs ls ns) :
    Consumed (received ns stack top).2 (received ns stack top).1 (before ++ ls) := by
  cases stack with
  | nil =>
    change ReadAs (before ++ ls) (ns.reverse ++ top).reverse
    rw [List.reverse_append, List.reverse_reverse]
    exact ReadAs.append h hls
  | cons o stack =>
    obtain ⟨outer, first, body, rfl, hfirst, hbody, houter⟩ := h
    refine ⟨outer, first, body ++ ls, by simp, hfirst, ?_, houter⟩
    change ReadAs (body ++ ls) (ns.reverse ++ o.children).reverse
    rw [List.reverse_append, List.reverse_reverse]
    exact hbody.append hls

theorem Consumed.close {o : OpenSection} {last written : String}
    (h : Consumed top (o :: stack) before) (hlast : LineShape.ofLine last = .closing written)
    (hname : Text.trim written = o.name) :
    Consumed (Script.received [o.close] stack top).2 (Script.received [o.close] stack top).1
      (before ++ [last]) := by
  obtain ⟨outer, first, body, rfl, hfirst, hbody, houter⟩ := h
  have hsection : ReadAs (first :: (body ++ [last])) [o.close] :=
    .sect hfirst hbody hlast hname .nil
  have hconsumed := houter.received hsection
  simpa using hconsumed

theorem consumed_nil : Consumed [] [] [] :=
  ReadAs.nil

/-- What a run says about all lines it has seen. -/
theorem of_parseLines (h : Consumed top stack before) :
    (∀ ns, parseLines total lineNo stack top ls = .ok ns → ReadAs (before ++ ls) ns) ∧
      ∀ e, parseLines total lineNo stack top ls = .error e → Misnests (before ++ ls) := by
  induction ls generalizing lineNo stack top before with
  | nil =>
    rw [List.append_nil]
    cases stack with
    | nil =>
      rw [parseLines.eq_def]
      refine ⟨fun ns hns => ?_, fun e he => ?_⟩
      · cases hns
        exact h
      · cases he
    | cons o stack =>
      obtain ⟨outer, first, body, rfl, hfirst, hbody, -⟩ := h
      rw [parseLines_unclosed]
      refine ⟨fun ns hns => ?_, fun e _ => ?_⟩
      · cases hns
      · exact .unclosed (opens_iff.mpr ⟨_, hfirst⟩) (isNested_iff.mpr ⟨_, hbody⟩)
  | cons l ls ih =>
    have hmove : before ++ l :: ls = before ++ [l] ++ ls := by simp
    rcases ofLine_cases l with ⟨-, ⟨name, attributes, hl⟩ | ⟨written, hl⟩⟩ | hl
    · rw [parseLines_opening hl, hmove]
      exact ih ⟨before, l, [], rfl, hl, .nil, h⟩
    · cases stack with
      | nil =>
        rw [parseLines_endWithoutBegin hl]
        refine ⟨fun ns hns => ?_, fun e _ => ?_⟩
        · cases hns
        · exact .endWithoutBegin (isNested_iff.mpr ⟨_, h⟩) (closes_iff.mpr ⟨_, hl, rfl⟩)
      | cons o stack =>
        by_cases hname : Text.trim written = o.name
        · rw [parseLines_close hl hname, hmove]
          exact ih (h.close hl hname)
        · obtain ⟨outer, first, body, rfl, hfirst, hbody, -⟩ := h
          rw [parseLines_endMismatch hl hname, List.append_assoc, List.cons_append]
          refine ⟨fun ns hns => ?_, fun e _ => ?_⟩
          · cases hns
          · exact .endMismatch (opens_iff.mpr ⟨_, hfirst⟩) (isNested_iff.mpr ⟨_, hbody⟩)
              (closes_iff.mpr ⟨_, hl, rfl⟩) hname
    · rw [parseLines_plain hl, hmove]
      exact ih (h.received (.plain hl .nil))

/-- The reader returns the nodes of the grammar. -/
theorem parseLines_eq_ok_iff {ns : List Node} :
    parseLines total lineNo [] [] ls = .ok ns ↔ ReadAs ls ns := by
  constructor
  · exact (of_parseLines consumed_nil).1 ns
  · intro h
    have hrun := @parseLines_of_readAs total lineNo [] [] ls ns h []
    rw [List.append_nil] at hrun
    rw [hrun, parseLines.eq_def]
    simp [received]

/-- A run over an opening line and lines that nest fails if it fails on what follows, whatever
stands in front. -/
theorem exists_error_of_opens {first opened : String} {body rest : List String}
    (hopens : Opens first opened) (hbody : IsNested body)
    (hrest : ∀ lineNo (o : OpenSection) stack top, o.name = opened →
      ∃ e, parseLines total lineNo (o :: stack) top rest = .error e) (outer : List String) :
    ∃ e, parseLines total lineNo stack top (outer ++ first :: (body ++ rest)) = .error e := by
  obtain ⟨attributes, hfirst⟩ := opens_iff.mp hopens
  obtain ⟨children, hchildren⟩ := isNested_iff.mp hbody
  rcases @exists_run total lineNo stack top outer with ⟨e, herror⟩ | ⟨stack', top', hrun⟩
  · exact ⟨e, herror _⟩
  · rw [hrun, parseLines_opening hfirst, parseLines_of_readAs hchildren]
    exact hrest _ _ _ _ rfl

/-- The reader fails exactly if the markers do not nest. -/
theorem parseLines_fails_iff :
    (∃ e, parseLines total lineNo [] [] ls = .error e) ↔ Misnests ls := by
  constructor
  · rintro ⟨e, h⟩
    exact (of_parseLines consumed_nil).2 e h
  · intro h
    cases h with
    | @endWithoutBegin before after l name hbefore hcloses =>
      obtain ⟨ns, hns⟩ := isNested_iff.mp hbefore
      obtain ⟨written, hl, -⟩ := closes_iff.mp hcloses
      rw [parseLines_of_readAs hns]
      exact ⟨_, parseLines_endWithoutBegin hl⟩
    | @endMismatch outer body after first last opened name hopens hbody hcloses hname =>
      obtain ⟨written, hl, rfl⟩ := closes_iff.mp hcloses
      refine exists_error_of_opens hopens hbody (fun lineNo o stack top ho => ?_) outer
      exact ⟨_, parseLines_endMismatch hl (ho ▸ hname)⟩
    | @unclosed outer body first name hopens hbody =>
      have hend : ∀ lineNo (o : OpenSection) stack top, o.name = name →
          ∃ e, parseLines total lineNo (o :: stack) top [] = .error e :=
        fun lineNo o stack top _ => ⟨_, parseLines_unclosed⟩
      have herror := @exists_error_of_opens total lineNo [] [] _ _ _ _ hopens hbody hend outer
      simpa using herror

end Runs

/-- The markers of some lines do not nest, or they nest. -/
theorem misnests_iff {ls : List String} : Misnests ls ↔ ¬IsNested ls := by
  have hok : (∃ ns, parseLines 0 0 [] [] ls = .ok ns) ↔ IsNested ls := by
    rw [isNested_iff]
    exact exists_congr fun ns => parseLines_eq_ok_iff
  rw [← @parseLines_fails_iff 0 0, ← hok]
  cases parseLines 0 0 [] [] ls <;> simp

end NetworkCompiler.Script
