import NetworkCompiler.Proofs.Script.EntryPaths

/-!
# Sections without differences

A comparison that also reports sections without differences says, apart from these reports, what it
says without them (`filter_compareNodes`). It reports a section in which nothing differs exactly if
all sections within it are ignored (`mem_diff_unchanged_iff`) : a section within it that is compared
is reported in its turn, and then the one around it is not (`diff_sectionWithin`).
-/

namespace NetworkCompiler.Script

open Node (document sect line)

section Unchanged

variable {ignored : List String} {path name : String} {l r left right : Node} {e : DiffEntry}

theorem compareNodes_plain (hkind : l.kind = r.kind) :
    compareNodes ⟨false, ignored⟩ path l r = nodeDifferences ⟨false, ignored⟩ path l r := by
  rw [compareNodes_eq, if_neg (not_not.mpr hkind)]
  rfl

theorem compareNodes_all (hkind : l.kind = r.kind) :
    compareNodes ⟨true, ignored⟩ path l r =
      if l.kind = .sect ∧ nodeDifferences ⟨true, ignored⟩ path l r = [] then [⟨path, .unchanged⟩]
      else nodeDifferences ⟨true, ignored⟩ path l r := by
  rw [compareNodes_eq, if_neg (not_not.mpr hkind)]
  simp only [Bool.true_and, Bool.and_eq_true, decide_eq_true_eq, List.isEmpty_iff]

/-! ## Other entries -/

theorem ne_unchanged_of_mem_ownDifference (he : e ∈ ownDifference path l r) :
    e.difference ≠ .unchanged := by
  obtain ⟨marker, rfl⟩ := eq_of_mem_ownDifference he
  exact Difference.noConfusion

theorem ne_unchanged_of_mem_countMismatch {m n : Nat} (he : e ∈ countMismatch path name m n) :
    e.difference ≠ .unchanged := by
  rw [countMismatch, List.mem_ite_nil_right] at he
  rw [List.mem_singleton.mp he.2]
  exact Difference.noConfusion

theorem filter_ownDifference :
    (ownDifference path l r).filter (·.difference ≠ .unchanged) = ownDifference path l r :=
  List.filter_eq_self.mpr fun _ he => decide_eq_true (ne_unchanged_of_mem_ownDifference he)

theorem filter_countMismatch {m n : Nat} :
    (countMismatch path name m n).filter (·.difference ≠ .unchanged) =
      countMismatch path name m n :=
  List.filter_eq_self.mpr fun _ he => decide_eq_true (ne_unchanged_of_mem_countMismatch he)

/-- Without the sections reported as unchanged a comparison says what it says by default. -/
theorem filter_compareNodes (l : Node) : ∀ (path : String) (r : Node),
    (compareNodes ⟨true, ignored⟩ path l r).filter (·.difference ≠ .unchanged) =
      compareNodes ⟨false, ignored⟩ path l r := by
  induction l using Node.sectionInduction with
  | step l ih =>
    intro path r
    have hpair : ∀ (path name : String) (i : Nat) (b : Option Node),
        (pairDifference ⟨true, ignored⟩ path (l.childrenNamed name)[i]? b).filter
          (·.difference ≠ .unchanged) =
            pairDifference ⟨false, ignored⟩ path (l.childrenNamed name)[i]? b := by
      intro path name i b
      cases hl : (l.childrenNamed name)[i]? with
      | none => cases b <;> rfl
      | some lc =>
        cases b with
        | none => rfl
        | some rc => exact ih name lc (List.mem_of_getElem? hl) path rc
    have hnode : (nodeDifferences ⟨true, ignored⟩ path l r).filter (·.difference ≠ .unchanged) =
        nodeDifferences ⟨false, ignored⟩ path l r := by
      simp only [nodeDifferences, namedDifferences, List.filter_append, List.filter_flatMap,
        filter_ownDifference, filter_countMismatch, hpair]
    by_cases hkind : l.kind = r.kind
    · rw [compareNodes_plain hkind, compareNodes_all hkind, ← hnode]
      split_ifs with hempty
      · rw [hempty.2]
        rfl
      · rfl
    · rw [compareNodes_eq, compareNodes_eq, if_pos hkind, if_pos hkind]
      rfl

/-- Nothing differs in what is compared with itself. -/
theorem compareNodes_self (n : Node) : ∀ path : String,
    compareNodes ⟨false, ignored⟩ path n n = [] := by
  induction n using Node.sectionInduction with
  | step n ih =>
    intro path
    have hown : ownDifference path n n = [] :=
      ownDifference_eq_nil_iff.mpr ⟨rfl, List.Perm.refl _⟩
    rw [compareNodes_plain rfl, nodeDifferences, hown, List.nil_append, List.flatMap_eq_nil_iff]
    intro name _
    refine namedDifferences_eq_nil_iff.mpr ⟨rfl, fun i lc rc hl hr => ?_⟩
    obtain rfl : lc = rc := Option.some.inj (hl.symm.trans hr)
    exact ih name lc (List.mem_of_getElem? hl) _

/-! ## Sections reported as unchanged -/

theorem compareNodes_all_ne_nil (hsect : l.kind = .sect) :
    compareNodes ⟨true, ignored⟩ path l r ≠ [] := by
  by_cases hkind : l.kind = r.kind
  · rw [compareNodes_all hkind]
    split_ifs with hempty
    · exact List.cons_ne_nil _ _
    · exact fun hnil => hempty ⟨hsect, hnil⟩
  · rw [compareNodes_eq, if_pos hkind]
    exact List.cons_ne_nil _ _

/-- Something is said about each name of which there are sections. -/
theorem namedDifferences_all_ne_nil (hname : name ∈ sectionNames l r) :
    namedDifferences ⟨true, ignored⟩ path name (l.childrenNamed name) (r.childrenNamed name) ≠
      [] := by
  rw [Ne, namedDifferences_eq_nil_iff]
  rintro ⟨hlength, hpairs⟩
  rw [sectionNames, mem_distinct, List.map_append, List.mem_append] at hname
  have hmem : ∀ n : Node, name ∈ n.sections.map (·.name) → 0 < (n.childrenNamed name).length := by
    intro n hn
    obtain ⟨c, hc, rfl⟩ := List.mem_map.mp hn
    exact List.length_pos_of_mem (List.mem_filter.mpr ⟨hc, decide_eq_true rfl⟩)
  have hpos : 0 < (l.childrenNamed name).length := by
    rcases hname with hname | hname
    · exact hmem l hname
    · exact hlength ▸ hmem r hname
  have hl := List.getElem?_eq_getElem hpos
  have hr := List.getElem?_eq_getElem (hlength ▸ hpos)
  exact compareNodes_all_ne_nil (kind_of_mem_childrenNamed (List.getElem_mem hpos))
    (hpairs 0 _ _ hl hr)

/-- Nothing is said about two nodes and what is below them exactly if nothing differs and all
sections in them are ignored. -/
theorem nodeDifferences_all_eq_nil_iff (hkind : l.kind = r.kind) :
    nodeDifferences ⟨true, ignored⟩ path l r = [] ↔
      compareNodes ⟨false, ignored⟩ path l r = [] ∧ ∀ name ∈ sectionNames l r, name ∈ ignored := by
  constructor
  · intro hnil
    constructor
    · rw [← filter_compareNodes, compareNodes_all hkind, hnil]
      split_ifs <;> rfl
    · intro name hname
      by_contra hignored
      rw [nodeDifferences, List.append_eq_nil_iff, List.flatMap_eq_nil_iff] at hnil
      exact namedDifferences_all_ne_nil hname
        (hnil.2 name (List.mem_filter.mpr ⟨hname, decide_eq_true hignored⟩))
  · rintro ⟨hplain, hignored⟩
    have hnames : (sectionNames l r).filter (fun name => name ∉ ignored) = [] := by
      refine List.filter_eq_nil_iff.mpr fun name hname => ?_
      simpa using hignored name hname
    rw [compareNodes_plain hkind, nodeDifferences, hnames] at hplain
    rw [nodeDifferences, hnames]
    exact hplain

/-- A section reported as unchanged is one of two in which nothing differs and all sections are
ignored. -/
theorem exists_compared_of_unchanged (hkind : left.kind = right.kind)
    (hunchanged : e.difference = .unchanged) (l : Node) : ∀ {path : String} {r : Node},
    Compared ignored left right path l r → e ∈ compareNodes ⟨true, ignored⟩ path l r →
      ∃ l' r', Compared ignored left right e.path l' r' ∧ l'.kind = .sect ∧
        compareNodes ⟨false, ignored⟩ e.path l' r' = [] ∧
        ∀ name ∈ sectionNames l' r', name ∈ ignored := by
  induction l using Node.sectionInduction with
  | step l ih =>
    intro path r hcompared he
    have hsame := hcompared.kind_eq hkind
    rw [compareNodes_all hsame] at he
    split_ifs at he with hself
    · obtain ⟨hsect, hnil⟩ := hself
      rw [List.mem_singleton.mp he]
      exact ⟨l, r, hcompared, hsect, (nodeDifferences_all_eq_nil_iff hsame).mp hnil⟩
    rcases mem_nodeDifferences.mp he with he | ⟨name, hname, he⟩
    · exact absurd hunchanged (ne_unchanged_of_mem_ownDifference he)
    rcases mem_namedDifferences.mp he with he | ⟨i, -, he⟩
    · exact absurd hunchanged (ne_unchanged_of_mem_countMismatch he)
    cases hl : (l.childrenNamed name)[i]? with
    | some lc =>
      cases hr : (r.childrenNamed name)[i]? with
      | some rc =>
        rw [hl, hr] at he
        exact ih name lc (List.mem_of_getElem? hl) (hcompared.sect hname hl hr) he
      | none =>
        rw [hl, hr] at he
        rw [List.mem_singleton.mp he] at hunchanged
        cases hunchanged
    | none =>
      cases hr : (r.childrenNamed name)[i]? with
      | some rc =>
        rw [hl, hr] at he
        rw [List.mem_singleton.mp he] at hunchanged
        cases hunchanged
      | none =>
        rw [hl, hr] at he
        cases he

/-- A path is reported as unchanged exactly if two sections are compared there in which nothing
differs and all sections are ignored. -/
theorem mem_diff_unchanged_iff (hkind : left.kind = right.kind) :
    ⟨path, .unchanged⟩ ∈ diff ⟨true, ignored⟩ left right ↔
      ∃ l r, Compared ignored left right path l r ∧ l.kind = .sect ∧
        compareNodes ⟨false, ignored⟩ path l r = [] ∧
        ∀ name ∈ sectionNames l r, name ∈ ignored := by
  constructor
  · exact exists_compared_of_unchanged hkind rfl left .root
  · rintro ⟨l, r, hcompared, hsect, hnothing⟩
    have hsame := hcompared.kind_eq hkind
    refine mem_diff_of_compared hkind hcompared ?_
    rw [compareNodes_all hsame, if_pos ⟨hsect, (nodeDifferences_all_eq_nil_iff hsame).mpr hnothing⟩]
    exact List.mem_singleton_self _

/-! ## Paths reported as unchanged -/

/-- Nothing below two nodes is reported under their own path. -/
theorem self_unchanged_iff (hkind : l.kind = r.kind) (hsect : l.kind = .sect) :
    ⟨path, .unchanged⟩ ∈ compareNodes ⟨true, ignored⟩ path l r ↔
      nodeDifferences ⟨true, ignored⟩ path l r = [] := by
  rw [compareNodes_all hkind]
  split_ifs with hempty
  · exact iff_of_true (List.mem_singleton_self _) hempty.2
  · refine iff_of_false (fun he => ?_) fun hnil => hempty ⟨hsect, hnil⟩
    rcases mem_nodeDifferences.mp he with he | ⟨name, -, he⟩
    · exact ne_unchanged_of_mem_ownDifference he rfl
    rcases mem_namedDifferences.mp he with he | ⟨i, -, he⟩
    · exact ne_unchanged_of_mem_countMismatch he rfl
    · have hbeneath := beneath_of_mem_pairDifference he
      exact not_beneath_childPath_self (p := path) hbeneath

/-- If names are plain, then a section is reported as unchanged under its path exactly if no
difference stands at or below the path and all sections within it are ignored. -/
theorem unchanged_iff_of_compared (hkind : left.kind = right.kind) (hleft : PlainlyNamed left)
    (hright : PlainlyNamed right) (h : Compared ignored left right path l r)
    (hsect : l.kind = .sect) :
    ⟨path, .unchanged⟩ ∈ diff ⟨true, ignored⟩ left right ↔
      (∀ e ∈ diff ⟨false, ignored⟩ left right, ¬Beneath path e.path) ∧
        ∀ name ∈ sectionNames l r, name ∈ ignored := by
  have hsame := h.kind_eq hkind
  have hself : ⟨path, .unchanged⟩ ∈ diff ⟨true, ignored⟩ left right ↔
      ⟨path, .unchanged⟩ ∈ compareNodes ⟨true, ignored⟩ path l r := by
    rw [← mem_diff_and_beneath_iff hkind hleft hright h]
    exact (and_iff_left .refl).symm
  have hplain : (∀ e ∈ diff ⟨false, ignored⟩ left right, ¬Beneath path e.path) ↔
      compareNodes ⟨false, ignored⟩ path l r = [] := by
    rw [List.eq_nil_iff_forall_not_mem]
    refine forall_congr' fun e => ?_
    rw [← mem_diff_and_beneath_iff hkind hleft hright h, not_and]
  rw [hself, hplain, self_unchanged_iff hsame hsect, nodeDifferences_all_eq_nil_iff hsame]

end Unchanged

/-- A comparison that also reports sections without differences adds only such reports. It reports
a path exactly if two sections are compared there in which nothing differs and all sections are
ignored. If names are plain, then nothing differs in two sections exactly if no difference stands at
or below their path. -/
theorem diff_unchanged (ignored : List String) {left right : Node} (hkind : left.kind = right.kind) :
    (diff ⟨true, ignored⟩ left right).filter (·.difference ≠ .unchanged) =
        diff ⟨false, ignored⟩ left right ∧
      (∀ path, ⟨path, .unchanged⟩ ∈ diff ⟨true, ignored⟩ left right ↔
        ∃ l r, Compared ignored left right path l r ∧ l.kind = .sect ∧
          compareNodes ⟨false, ignored⟩ path l r = [] ∧
          ∀ name ∈ sectionNames l r, name ∈ ignored) ∧
      (PlainlyNamed left → PlainlyNamed right → ∀ path l r, Compared ignored left right path l r →
        l.kind = .sect →
          (⟨path, .unchanged⟩ ∈ diff ⟨true, ignored⟩ left right ↔
            (∀ e ∈ diff ⟨false, ignored⟩ left right, ¬Beneath path e.path) ∧
              ∀ name ∈ sectionNames l r, name ∈ ignored)) := by
  refine ⟨filter_compareNodes left "script" right, fun path => mem_diff_unchanged_iff hkind, ?_⟩
  intro hleft hright path l r h hsect
  exact unchanged_iff_of_compared hkind hleft hright h hsect

/-- A section `b` with one command. -/
def sectionB : Node :=
  sect "b" [] [line "y=1"]

/-- A section `a` with a section `b` within. -/
def sectionAB : Node :=
  sect "a" [] [sectionB]

/-- A script of one section with a section within. -/
def nestedScript : Node :=
  document none [sectionAB]

theorem plainlyNamed_nestedScript : PlainlyNamed nestedScript := by
  have hb : PlainlyNamed sectionB := .intro (by decide) fun c hc => by cases hc
  have ha : PlainlyNamed sectionAB :=
    .intro (by decide) fun c hc => List.mem_singleton.mp hc ▸ hb
  exact .intro (by decide) fun c hc => List.mem_singleton.mp hc ▸ ha

theorem compared_sectionAB :
    Compared [] nestedScript nestedScript "script.a" sectionAB sectionAB :=
  @Compared.sect [] nestedScript nestedScript _ "a" 0 _ _ _ _ .root (by decide) rfl rfl

theorem compared_sectionB :
    Compared [] nestedScript nestedScript "script.a.b" sectionB sectionB :=
  @Compared.sect [] nestedScript nestedScript _ "b" 0 _ _ _ _ compared_sectionAB (by decide) rfl rfl

/-- A section without sections within is reported. -/
theorem diff_unchanged_nestedScript :
    nestedScript.kind = nestedScript.kind ∧ PlainlyNamed nestedScript ∧
      Compared [] nestedScript nestedScript "script.a.b" sectionB sectionB ∧
      sectionB.kind = .sect ∧
      ⟨"script.a.b", .unchanged⟩ ∈ diff ⟨true, []⟩ nestedScript nestedScript := by
  have hplain := plainlyNamed_nestedScript
  refine ⟨rfl, hplain, compared_sectionB, rfl, ?_⟩
  obtain ⟨-, -, hpaths⟩ := diff_unchanged [] (rfl : nestedScript.kind = nestedScript.kind)
  refine (hpaths hplain hplain _ _ _ compared_sectionB rfl).mpr ⟨fun e he => ?_, by decide⟩
  rw [diff, compareNodes_self] at he
  cases he

/-- Nothing differs in the section `a`, and it is not reported, since the section within is. -/
theorem diff_sectionWithin :
    Compared [] nestedScript nestedScript "script.a" sectionAB sectionAB ∧
      sectionAB.kind = .sect ∧ diff ⟨false, []⟩ nestedScript nestedScript = [] ∧
      ⟨"script.a", .unchanged⟩ ∉ diff ⟨true, []⟩ nestedScript nestedScript := by
  refine ⟨compared_sectionAB, rfl, compareNodes_self nestedScript "script", fun hmem => ?_⟩
  have hplain := plainlyNamed_nestedScript
  obtain ⟨-, hignored⟩ :=
    (unchanged_iff_of_compared rfl hplain hplain compared_sectionAB rfl).mp hmem
  cases hignored "b" (by decide)

end NetworkCompiler.Script
