import NetworkCompiler.Proofs.Script.EntryPaths
import NetworkCompiler.Proofs.Text.Lines

/-!
# Ignored sections

Sections are ignored where sections are paired, not where lines are collected : the body of a
section on one side only, and a block in a body that is compared, are shown with the lines of the
ignored sections within. So ignoring sections is the same as leaving them out of both trees
(`Node.without`) exactly if no such lines are seen (`IgnoredUnseen`), and
`diff_ignoredWithin` is a comparison that shows some.
-/

namespace NetworkCompiler.Script

open Node (document sect line)

/-! ## Trees without sections -/

namespace Node

mutual

/-- A tree without the sections of some names within it, at any depth. -/
def without (names : List String) : Node → Node
  | ⟨kind, name, attributes, text, close, children⟩ =>
    ⟨kind, name, attributes, text, close, withoutAll names children⟩

/-- The trees of a list without the sections of some names among and within them. -/
def withoutAll (names : List String) : List Node → List Node
  | [] => []
  | n :: ns =>
    if n.kind = .sect ∧ n.name ∈ names then withoutAll names ns
    else without names n :: withoutAll names ns

end

mutual

/-- Whether a tree is written with a section of one of some names within it. -/
def holds (names : List String) : Node → Bool
  | ⟨.document, _, _, _, _, children⟩ => holdsAny names children
  | ⟨.sect, _, _, _, _, children⟩ => holdsAny names children
  | ⟨.block, _, _, _, _, children⟩ => holdsAny names children
  | _ => false

/-- Whether the trees of a list are written with a section of one of some names among or within
them. -/
def holdsAny (names : List String) : List Node → Bool
  | [] => false
  | n :: ns => (decide (n.kind = .sect ∧ n.name ∈ names) || holds names n) || holdsAny names ns

end

section Without

variable {names : List String} {name : String} {n : Node}

@[simp] theorem kind_without : (n.without names).kind = n.kind := by
  cases n
  rfl

@[simp] theorem name_without : (n.without names).name = n.name := by
  cases n
  rfl

@[simp] theorem marker_without : (n.without names).marker = n.marker := by
  cases n
  rfl

@[simp] theorem children_without : (n.without names).children = withoutAll names n.children := by
  cases n
  rfl

theorem withoutAll_eq (ns : List Node) : withoutAll names ns =
    (ns.filter fun c => ¬(c.kind = .sect ∧ c.name ∈ names)).map (without names) := by
  induction ns with
  | nil => rfl
  | cons c ns ih =>
    rw [withoutAll]
    split_ifs with hc
    · rw [ih, List.filter_cons_of_neg (by simp [hc])]
    · rw [ih, List.filter_cons_of_pos (by simp only [hc, decide_true, not_false_eq_true]),
        List.map_cons]

theorem sections_without :
    (n.without names).sections = (n.sections.filter (·.name ∉ names)).map (without names) := by
  have hsection : isSection ∘ without names = isSection := by
    funext c
    rw [Function.comp_apply, isSection, kind_without, isSection]
  rw [sections, children_without, withoutAll_eq, List.filter_map, hsection, List.filter_filter,
    sections, List.filter_filter]
  refine congrArg _ (List.filter_congr fun c _ => ?_)
  by_cases hc : c.kind = .sect <;> simp [isSection, hc]

theorem childrenNamed_without (hname : name ∉ names) :
    (n.without names).childrenNamed name = (n.childrenNamed name).map (without names) := by
  rw [childrenNamed, sections_without, List.filter_map, List.filter_filter, childrenNamed]
  refine congrArg _ (List.filter_congr fun c _ => ?_)
  by_cases hc : c.name = name <;> simp [hc, hname]

theorem names_sections_without :
    (n.without names).sections.map (·.name) =
      (n.sections.map (·.name)).filter (· ∉ names) := by
  rw [sections_without, List.map_map, List.filter_map]
  exact List.map_congr_left fun c _ => name_without

end Without

end Node

theorem distinct_filter (p : String → Bool) (l : List String) :
    distinct (l.filter p) = (distinct l).filter p := by
  have hfold : ∀ seen : List String,
      (l.filter p).foldl (fun seen s => if s ∈ seen then seen else seen ++ [s]) (seen.filter p) =
        (l.foldl (fun seen s => if s ∈ seen then seen else seen ++ [s]) seen).filter p := by
    induction l with
    | nil => exact fun _ => rfl
    | cons s l ih =>
      intro seen
      rw [List.foldl_cons, ← ih]
      cases hs : p s with
      | true =>
        rw [List.filter_cons_of_pos hs, List.foldl_cons]
        refine congrArg (List.foldl _ · _) ?_
        by_cases hmem : s ∈ seen <;> simp [hmem, hs]
      | false =>
        rw [List.filter_cons_of_neg (by simp [hs])]
        refine congrArg (List.foldl _ · _) ?_
        by_cases hmem : s ∈ seen <;> simp [hmem, hs]
  exact hfold []

theorem sectionNames_without {names : List String} {l r : Node} :
    sectionNames (l.without names) (r.without names) =
      (sectionNames l r).filter (· ∉ names) := by
  rw [sectionNames, List.map_append, Node.names_sections_without, Node.names_sections_without,
    ← List.filter_append, distinct_filter, ← List.map_append, sectionNames]

theorem PlainlyNamed.without {names : List String} {n : Node} (h : PlainlyNamed n) :
    PlainlyNamed (n.without names) := by
  induction h with
  | intro hnames _ ih =>
    constructor
    · intro c hc
      rw [Node.sections_without] at hc
      obtain ⟨d, hd, rfl⟩ := List.mem_map.mp hc
      rw [Node.name_without]
      exact hnames d (List.mem_of_mem_filter hd)
    · intro c hc
      rw [Node.sections_without] at hc
      obtain ⟨d, hd, rfl⟩ := List.mem_map.mp hc
      exact ih d (List.mem_of_mem_filter hd)

/-! ## Lines without sections -/

theorem trimmedLines_append (ls rs : List String) :
    trimmedLines (ls ++ rs) = trimmedLines ls ++ trimmedLines rs := by
  rw [trimmedLines, List.map_append, List.filter_append]
  rfl

/-- Lines that are the same, or where something is left out, that are fewer once they are
trimmed. -/
def Fewer (out : Bool) (ls' ls : List String) : Prop :=
  if out then (trimmedLines ls').length < (trimmedLines ls).length else ls' = ls

section Fewer

variable {out out' : Bool} {ls ls' ks ks' : List String}

theorem fewer_rfl : Fewer false ls ls :=
  rfl

theorem Fewer.append (hls : Fewer out ls' ls) (hks : Fewer out' ks' ks) :
    Fewer (out || out') (ls' ++ ks') (ls ++ ks) := by
  simp only [Fewer] at *
  cases out <;> cases out' <;> simp_all [trimmedLines_append]
  omega

theorem Fewer.append_left (hls : Fewer out ls' ls) (ks : List String) :
    Fewer out (ks ++ ls') (ks ++ ls) := by
  have hks : Fewer false ks ks := fewer_rfl
  simpa using hks.append hls

theorem Fewer.append_right (hls : Fewer out ls' ls) (ks : List String) :
    Fewer out (ls' ++ ks) (ls ++ ks) := by
  have hks : Fewer false ks ks := fewer_rfl
  simpa using hls.append hks

theorem trimmedLines_eq_iff (h : Fewer out ls' ls) :
    trimmedLines ls' = trimmedLines ls ↔ out = false := by
  cases out with
  | false => exact iff_of_true (congrArg _ h) rfl
  | true =>
    have hlength : (trimmedLines ls').length < (trimmedLines ls).length := h
    refine iff_of_false (fun heq => ?_) Bool.noConfusion
    rw [heq] at hlength
    exact Nat.lt_irrefl _ hlength

end Fewer

/-- A line with a character that is not blank is left by trimming. -/
theorem trim_ne_nil {cs : List Char} {c : Char} (hc : c ∈ cs) (hsolid : Text.isBlank c = false) :
    Text.Chars.trim cs ≠ [] := by
  have hdrop : ∀ ds : List Char, c ∈ ds → c ∈ ds.dropWhile Text.isBlank := by
    intro ds hds
    rw [← List.takeWhile_append_dropWhile (p := Text.isBlank) (l := ds), List.mem_append] at hds
    refine hds.resolve_left fun htake => ?_
    rw [List.mem_takeWhile_imp htake] at hsolid
    cases hsolid
  rw [Text.Chars.trim, Text.Chars.trimEnd, Ne, List.reverse_eq_nil_iff]
  exact List.ne_nil_of_mem (hdrop _ (List.mem_reverse.mpr (hdrop _ hc)))

theorem trimmedLines_ne_nil {ls : List String} {l : String} (hl : l ∈ ls) {c : Char}
    (hc : c ∈ l.toList) (hsolid : Text.isBlank c = false) : trimmedLines ls ≠ [] := by
  refine List.ne_nil_of_mem (a := Text.trim l) (List.mem_filter.mpr ⟨List.mem_map_of_mem hl, ?_⟩)
  have htrim := trim_ne_nil hc hsolid
  simpa [Text.trim] using htrim

theorem mem_textLines {depth : Nat} {c : Char} {cs : List Char} {text : String}
    (htext : text.toList = c :: cs) (hc : c ≠ '\n') : ∃ l ∈ textLines depth text, c ∈ l.toList := by
  rw [textLines, Text.splitAt, htext, Text.Chars.splitAt]
  cases hcs : Text.Chars.splitAt '\n' cs with
  | nil => exact absurd hcs (Text.Chars.splitAt_ne_nil _ _)
  | cons piece rest =>
    simp only [if_neg hc, List.map_cons]
    refine ⟨_, List.mem_cons_self, ?_⟩
    split_ifs <;> simp

/-- The marker that opens a section is left by trimming. -/
theorem trimmedLines_sect_ne_nil {n : Node} (h : n.kind = .sect) (depth : Nat) :
    trimmedLines (n.lines depth) ≠ [] := by
  obtain ⟨kind, name, attributes, text, close, children⟩ := n
  obtain rfl : kind = .sect := h
  have hstart : (beginLine name attributes).toList.head? = some '#' := by
    rw [beginLine, String.append_assoc, String.toList_append]
    rfl
  obtain ⟨cs, hcs⟩ := List.head?_eq_some_iff.mp hstart
  obtain ⟨l, hl, hc⟩ : ∃ l ∈ textLines depth (beginLine name attributes), '#' ∈ l.toList :=
    mem_textLines hcs (by decide)
  rw [Node.lines]
  exact trimmedLines_ne_nil (List.mem_append_left _ (List.mem_append_left _ hl)) hc (by decide)

namespace Node

variable (names : List String)

mutual

/-- A tree is written with fewer lines exactly if it was written with one of the sections. -/
theorem fewer_lines (depth : Nat) : ∀ n : Node,
    Fewer (n.holds names) ((n.without names).lines depth) (n.lines depth)
  | ⟨.document, _, _, _, _, children⟩ => by
    rw [lines.eq_def, lines.eq_def]
    exact (fewer_linesAll depth children).append_left _
  | ⟨.sect, _, _, _, _, children⟩ => by
    rw [lines.eq_def, lines.eq_def]
    exact ((fewer_linesAll depth children).append_left _).append_right _
  | ⟨.block, _, _, _, _, children⟩ => by
    rw [lines.eq_def, lines.eq_def]
    exact ((fewer_linesAll (depth + 1) children).append_left _).append_right _
  | ⟨.line, _, _, _, _, _⟩ => fewer_rfl
  | ⟨.comment, _, _, _, _, _⟩ => fewer_rfl
  | ⟨.blank, _, _, _, _, _⟩ => fewer_rfl

theorem fewer_linesAll (depth : Nat) : ∀ ns : List Node,
    Fewer (holdsAny names ns) (linesAll depth (withoutAll names ns)) (linesAll depth ns)
  | [] => fewer_rfl
  | n :: ns => by
    have hns := fewer_linesAll depth ns
    rw [holdsAny, withoutAll, linesAll]
    split_ifs with hn
    · have hout : Fewer true [] (n.lines depth) :=
        List.length_pos_iff.mpr (trimmedLines_sect_ne_nil hn.1 depth)
      simpa [hn] using hout.append hns
    · rw [linesAll]
      simpa [hn] using (fewer_lines depth n).append hns

end

/-- The lines between a section's markers are the same exactly if none of the sections is within. -/
theorem sectionLines_without_eq_iff {n : Node} (h : n.kind = .sect) :
    (n.without names).sectionLines = n.sectionLines ↔ n.holds names = false := by
  have hlines : ∀ ns : List Node, (ns.flatMap fun c => trimmedLines (c.lines 0)) =
      trimmedLines (linesAll 0 ns) := by
    intro ns
    induction ns with
    | nil => rfl
    | cons c ns ih => rw [List.flatMap_cons, ih, linesAll, trimmedLines_append]
  obtain ⟨kind, name, attributes, text, close, children⟩ := n
  obtain rfl : kind = .sect := h
  rw [sectionLines, sectionLines, hlines, hlines]
  exact trimmedLines_eq_iff (fewer_linesAll names 0 children)

end Node

/-! ## Comparisons without sections -/

/-- The lines of ignored sections are not seen in a comparison : what is left over of two bodies is
the same without them, and sections on one side only are written without any. -/
structure IgnoredUnseen (ignored : List String) (left right : Node) : Prop where
  bodies : ∀ path l r, Compared ignored left right path l r →
    unmatched (r.without ignored).bodyLines (l.without ignored).bodyLines =
        unmatched r.bodyLines l.bodyLines ∧
      unmatched (l.without ignored).bodyLines (r.without ignored).bodyLines =
        unmatched l.bodyLines r.bodyLines
  removed : ∀ path l r, Compared ignored left right path l r → ∀ name ∉ ignored,
    ∀ (i : Nat) (c : Node), (l.childrenNamed name)[i]? = some c →
      (r.childrenNamed name)[i]? = none → c.holds ignored = false
  added : ∀ path l r, Compared ignored left right path l r → ∀ name ∉ ignored,
    ∀ (i : Nat) (c : Node), (l.childrenNamed name)[i]? = none →
      (r.childrenNamed name)[i]? = some c → c.holds ignored = false

section Comparison

variable {ignored : List String} {all : Bool} {left right l r : Node} {path name : String}

theorem getElem?_childrenNamed_without {n : Node} (hname : name ∉ ignored) (i : Nat) :
    ((n.without ignored).childrenNamed name)[i]? =
      ((n.childrenNamed name)[i]?).map (Node.without ignored) := by
  rw [Node.childrenNamed_without hname, List.getElem?_map]

theorem length_childrenNamed_without {n : Node} (hname : name ∉ ignored) :
    ((n.without ignored).childrenNamed name).length = (n.childrenNamed name).length := by
  rw [Node.childrenNamed_without hname, List.length_map]

/-- What compares two trees compares them without the ignored sections. -/
theorem Compared.without (h : Compared ignored left right path l r) :
    Compared [] (left.without ignored) (right.without ignored) path (l.without ignored)
      (r.without ignored) := by
  induction h with
  | root => exact .root
  | @sect path name i l r lc rc _ hname hl hr ih =>
    have hl' : ((l.without ignored).childrenNamed name)[i]? = some (lc.without ignored) := by
      rw [getElem?_childrenNamed_without hname, hl, Option.map_some]
    have hr' : ((r.without ignored).childrenNamed name)[i]? = some (rc.without ignored) := by
      rw [getElem?_childrenNamed_without hname, hr, Option.map_some]
    have hsect := ih.sect List.not_mem_nil hl' hr'
    rwa [length_childrenNamed_without hname, length_childrenNamed_without hname] at hsect

theorem ownDifference_without (h : IgnoredUnseen ignored left right)
    (hcompared : Compared ignored left right path l r) :
    ownDifference path l r = ownDifference path (l.without ignored) (r.without ignored) := by
  obtain ⟨hremoved, hadded⟩ := h.bodies path l r hcompared
  rw [ownDifference, ownDifference, Node.marker_without, Node.marker_without, hremoved, hadded]

/-- If no lines of ignored sections are seen, then a comparison is one without these sections. -/
theorem compareNodes_without (h : IgnoredUnseen ignored left right) (l : Node) :
    ∀ {path : String} {r : Node}, Compared ignored left right path l r →
      compareNodes ⟨all, ignored⟩ path l r =
        compareNodes ⟨all, []⟩ path (l.without ignored) (r.without ignored) := by
  induction l using Node.sectionInduction with
  | step l ih =>
    intro path r hcompared
    have hpair : ∀ name ∉ ignored, ∀ i,
        pairDifference ⟨all, ignored⟩ (childPath path name
            (max (l.childrenNamed name).length (r.childrenNamed name).length) i)
          (l.childrenNamed name)[i]? (r.childrenNamed name)[i]? =
        pairDifference ⟨all, []⟩ (childPath path name
            (max (l.childrenNamed name).length (r.childrenNamed name).length) i)
          ((l.without ignored).childrenNamed name)[i]?
          ((r.without ignored).childrenNamed name)[i]? := by
      intro name hname i
      rw [getElem?_childrenNamed_without hname, getElem?_childrenNamed_without hname]
      cases hl : (l.childrenNamed name)[i]? with
      | some lc =>
        have hsect := kind_of_mem_childrenNamed (List.mem_of_getElem? hl)
        cases hr : (r.childrenNamed name)[i]? with
        | some rc => exact ih name lc (List.mem_of_getElem? hl) (hcompared.sect hname hl hr)
        | none =>
          have hlines := (Node.sectionLines_without_eq_iff ignored hsect).mpr
            (h.removed path l r hcompared name hname i lc hl hr)
          simp only [pairDifference, Option.map_some, Option.map_none, Node.marker_without, hlines]
      | none =>
        cases hr : (r.childrenNamed name)[i]? with
        | some rc =>
          have hsect := kind_of_mem_childrenNamed (List.mem_of_getElem? hr)
          have hlines := (Node.sectionLines_without_eq_iff ignored hsect).mpr
            (h.added path l r hcompared name hname i rc hl hr)
          simp only [pairDifference, Option.map_some, Option.map_none, Node.marker_without, hlines]
        | none => rfl
    have hnode : nodeDifferences ⟨all, ignored⟩ path l r =
        nodeDifferences ⟨all, []⟩ path (l.without ignored) (r.without ignored) := by
      have hnames : ((sectionNames l r).filter (· ∉ ignored)).filter
          (fun name => name ∉ ([] : List String)) = (sectionNames l r).filter (· ∉ ignored) :=
        List.filter_eq_self.mpr fun _ _ => decide_eq_true List.not_mem_nil
      rw [nodeDifferences, nodeDifferences, ownDifference_without h hcompared, sectionNames_without,
        hnames]
      refine congrArg _ (List.flatMap_congr fun name hname => ?_)
      have hname : name ∉ ignored := of_decide_eq_true (List.mem_filter.mp hname).2
      rw [namedDifferences, namedDifferences, length_childrenNamed_without hname,
        length_childrenNamed_without hname]
      exact congrArg _ (List.flatMap_congr fun i _ => hpair name hname i)
    rw [compareNodes_eq, compareNodes_eq, hnode, Node.kind_without, Node.kind_without]

/-- Bodies of which the same is said leave the same lines over. -/
theorem unmatched_eq_of_ownDifference (path : String) {l' r' : Node}
    (h : ∀ marker removed added, ⟨path, .changed marker removed added⟩ ∈ ownDifference path l r ↔
      ⟨path, .changed marker removed added⟩ ∈ ownDifference path l' r') :
    unmatched r'.bodyLines l'.bodyLines = unmatched r.bodyLines l.bodyLines ∧
      unmatched l'.bodyLines r'.bodyLines = unmatched l.bodyLines r.bodyLines := by
  by_cases hown : ownDifference path l r = []
  · have hown' : ownDifference path l' r' = [] := by
      refine List.eq_nil_iff_forall_not_mem.mpr fun e he => ?_
      obtain ⟨marker, rfl⟩ := eq_of_mem_ownDifference he
      have hmem := (h _ _ _).mpr he
      rw [hown] at hmem
      cases hmem
    obtain ⟨-, hperm⟩ := ownDifference_eq_nil_iff.mp hown
    obtain ⟨-, hperm'⟩ := ownDifference_eq_nil_iff.mp hown'
    obtain ⟨hl, hr⟩ := (unmatched_eq_nil_iff _ _).mpr hperm
    obtain ⟨hl', hr'⟩ := (unmatched_eq_nil_iff _ _).mpr hperm'
    exact ⟨hl'.trans hl.symm, hr'.trans hr.symm⟩
  · obtain ⟨e, he⟩ := List.exists_mem_of_ne_nil _ hown
    obtain ⟨marker, rfl⟩ := eq_of_mem_ownDifference he
    obtain ⟨marker', heq⟩ := eq_of_mem_ownDifference ((h _ _ _).mp he)
    simp only [DiffEntry.mk.injEq, Difference.changed.injEq] at heq
    exact ⟨heq.2.2.1.symm, heq.2.2.2.symm⟩

/-- If names are plain and a comparison is one without the ignored sections, then what it says about
one position is said without them. -/
theorem mem_pairDifference_without (hkind : left.kind = right.kind) (hleft : PlainlyNamed left)
    (hright : PlainlyNamed right)
    (heq : diff ⟨all, ignored⟩ left right =
      diff ⟨all, []⟩ (left.without ignored) (right.without ignored))
    (h : Compared ignored left right path l r) (hname : name ∉ ignored) {i : Nat}
    (hi : i < max (l.childrenNamed name).length (r.childrenNamed name).length) {e : DiffEntry}
    (he : e ∈ pairDifference ⟨all, ignored⟩ (childPath path name
      (max (l.childrenNamed name).length (r.childrenNamed name).length) i)
      (l.childrenNamed name)[i]? (r.childrenNamed name)[i]?) :
    e ∈ pairDifference ⟨all, []⟩ (childPath path name
      (max (l.childrenNamed name).length (r.childrenNamed name).length) i)
      (((l.childrenNamed name)[i]?).map (Node.without ignored))
      (((r.childrenNamed name)[i]?).map (Node.without ignored)) := by
  have hsame := h.kind_eq hkind
  obtain ⟨hl, hr⟩ := h.plainlyNamed hleft hright
  have hmem := mem_diff_of_compared hkind h (mem_compareNodes_of_pair hsame hname hi he)
  have hbeneath := beneath_of_mem_pairDifference he
  rw [heq] at hmem
  have hbelow := (mem_diff_and_beneath_iff (by simpa using hkind) hleft.without hright.without
    h.without).mp ⟨hmem, beneath_childPath.trans hbeneath⟩
  have hi' : i < max ((l.without ignored).childrenNamed name).length
      ((r.without ignored).childrenNamed name).length := by
    rwa [length_childrenNamed_without hname, length_childrenNamed_without hname]
  have hpair := (mem_compareNodes_and_beneath_iff (by simpa using hsame) hl.without hr.without
    List.not_mem_nil hi').mp
    ⟨hbelow, by rwa [length_childrenNamed_without hname, length_childrenNamed_without hname]⟩
  rwa [length_childrenNamed_without hname, length_childrenNamed_without hname,
    getElem?_childrenNamed_without hname, getElem?_childrenNamed_without hname] at hpair

/-- If a comparison of plainly named trees is one without the ignored sections, then no lines of
these sections are seen. -/
theorem ignoredUnseen_of_diff_eq (hkind : left.kind = right.kind) (hleft : PlainlyNamed left)
    (hright : PlainlyNamed right)
    (heq : diff ⟨all, ignored⟩ left right =
      diff ⟨all, []⟩ (left.without ignored) (right.without ignored)) :
    IgnoredUnseen ignored left right where
  bodies path l r h := by
    have hsame := h.kind_eq hkind
    refine unmatched_eq_of_ownDifference path fun marker removed added => ?_
    rw [← changed_mem_compareNodes_iff ⟨all, ignored⟩ hsame,
      ← changed_mem_compareNodes_iff ⟨all, []⟩ (by simpa using hsame),
      ← mem_diff_and_beneath_iff hkind hleft hright h,
      ← mem_diff_and_beneath_iff (by simpa using hkind) hleft.without hright.without h.without, heq]
  removed path l r h name hname i c hl hr := by
    have hlength := (List.getElem?_eq_some_iff.mp hl).1
    have hpair := mem_pairDifference_without hkind hleft hright heq h hname (i := i)
      (e := ⟨_, .removed c.marker c.sectionLines⟩) (by omega)
      (by rw [hl, hr]; exact List.mem_singleton_self _)
    rw [hl, hr] at hpair
    have hentry := List.mem_singleton.mp hpair
    refine (Node.sectionLines_without_eq_iff ignored
      (kind_of_mem_childrenNamed (List.mem_of_getElem? hl))).mp ?_
    simp only [DiffEntry.mk.injEq, Difference.removed.injEq] at hentry
    exact hentry.2.2.symm
  added path l r h name hname i c hl hr := by
    have hlength := (List.getElem?_eq_some_iff.mp hr).1
    have hpair := mem_pairDifference_without hkind hleft hright heq h hname (i := i)
      (e := ⟨_, .added c.marker c.sectionLines⟩) (by omega)
      (by rw [hl, hr]; exact List.mem_singleton_self _)
    rw [hl, hr] at hpair
    have hentry := List.mem_singleton.mp hpair
    refine (Node.sectionLines_without_eq_iff ignored
      (kind_of_mem_childrenNamed (List.mem_of_getElem? hr))).mp ?_
    simp only [DiffEntry.mk.injEq, Difference.added.injEq] at hentry
    exact hentry.2.2.symm

end Comparison

/-- To ignore sections is to leave them out of both trees if no lines of theirs are seen, and if
names are plain only then. -/
theorem diff_ignored (opts : DiffOptions) {left right : Node} (hkind : left.kind = right.kind) :
    (IgnoredUnseen opts.ignored left right → diff opts left right =
        diff { opts with ignored := [] } (left.without opts.ignored)
          (right.without opts.ignored)) ∧
      (PlainlyNamed left → PlainlyNamed right → diff opts left right =
        diff { opts with ignored := [] } (left.without opts.ignored)
          (right.without opts.ignored) → IgnoredUnseen opts.ignored left right) :=
  ⟨fun h => compareNodes_without h left .root, ignoredUnseen_of_diff_eq hkind⟩

/-- A script of two sections. -/
def mixedScript : Node :=
  document none [sect "a" [] [line "x=1"], sect "b" [] [line "y=1"]]

/-- A script of one section. -/
def plainScript : Node :=
  document none [sect "b" [] [line "y=2"]]

/-- An ignored section beside the one that is shown is not seen. -/
theorem diff_ignored_mixedScript :
    mixedScript.kind = plainScript.kind ∧ PlainlyNamed mixedScript ∧ PlainlyNamed plainScript ∧
      IgnoredUnseen ["b"] mixedScript plainScript ∧
      diff ⟨false, ["b"]⟩ mixedScript plainScript =
        diff ⟨false, []⟩ (mixedScript.without ["b"]) (plainScript.without ["b"]) := by
  have hkind : mixedScript.kind = plainScript.kind := rfl
  have hleaf : ∀ n : Node, n.sections = [] → PlainlyNamed n := fun n hn =>
    .intro (by simp [hn]) (by simp [hn])
  have hmixed : PlainlyNamed mixedScript :=
    .intro (by decide) fun c hc => hleaf c (by revert c; decide)
  have hplain : PlainlyNamed plainScript :=
    .intro (by decide) fun c hc => hleaf c (by revert c; decide)
  have hdiff : diff ⟨false, ["b"]⟩ mixedScript plainScript =
      diff ⟨false, []⟩ (mixedScript.without ["b"]) (plainScript.without ["b"]) := by
    rw [diff, diff, compareNodes_eq, compareNodes_eq]
    decide
  obtain ⟨hsame, hunseen⟩ := diff_ignored ⟨false, ["b"]⟩ hkind
  have h := hunseen hmixed hplain hdiff
  exact ⟨hkind, hmixed, hplain, h, hsame h⟩

/-- The lines of an ignored section are shown with the section around it, if that is on one side
only. -/
theorem diff_ignoredWithin :
    let left := document (some "#!/bin/sh")
      [sect "a" [] [line "x=1", sect "b" [] [line "y=1"]]]
    let right := document (some "#!/bin/sh") []
    diff ⟨false, ["b"]⟩ left right =
        [⟨"script.a", .removed "" ["x=1", "# >>> b", "y=1", "# <<< b"]⟩] ∧
      diff ⟨false, []⟩ (left.without ["b"]) (right.without ["b"]) =
        [⟨"script.a", .removed "" ["x=1"]⟩] := by
  intro left right
  constructor
  · rw [diff, compareNodes_eq]
    decide
  · rw [diff, compareNodes_eq]
    decide

end NetworkCompiler.Script
