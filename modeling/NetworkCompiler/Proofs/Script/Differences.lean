import Mathlib.Data.List.Nodup
import Mathlib.Data.List.Perm.Basic
import NetworkCompiler.Script.Diff

/-!
# What a comparison finds

A comparison finds nothing exactly if two scripts agree (`compareNodes_eq_nil_iff_agree`) : in their
markers, in their body lines in any order, and so on in the sections of each name, which are paired
in order (`Agree`). What it says about a section that changed is said about two sections that it
paired (`exists_paired_of_mem_compareNodes`), and the lines that it shows make up for what one side
has more than the other (`perm_append_unmatched`), since lines are cancelled by number
(`count_unmatched`). The interpreter of a script is a body line like any other, so it may stand
elsewhere on the other side (`diff_interpreterElsewhere`).

The other way round a comparison finds the same, with the two sides of each entry exchanged
(`diff_exchanged`). The order of the entries may be another one, because the names of sections are
gathered from the left script first. They are the same names, each once (`sectionNames_perm`), and
sections of one name are paired by their numbers, so below each name the entries come in the same
order but for what is nested in them.
-/

namespace NetworkCompiler.Script

open Node (document)

/-! ## Lines that are not cancelled -/

theorem count_unmatched (x : String) (available ls : List String) :
    (unmatched available ls).count x = ls.count x - available.count x := by
  induction ls generalizing available with
  | nil => simp [unmatched]
  | cons l ls ih =>
    rw [unmatched]
    split_ifs with hl
    · have hcount : l = x → 0 < available.count x := by
        rintro rfl
        exact List.count_pos_iff.mpr hl
      rw [ih, List.count_erase, List.count_cons]
      by_cases hx : l = x
      · have hpos := hcount hx
        simp [hx]
        omega
      · simp [hx]
    · have hcount : l = x → available.count x = 0 := by
        rintro rfl
        exact List.count_eq_zero.mpr hl
      rw [List.count_cons, ih, List.count_cons]
      by_cases hx : l = x
      · rw [hcount hx]
        simp
      · simp [hx]

section Unmatched

variable (ls rs : List String)

/-- What is left over on each side makes both sides the same. -/
theorem perm_append_unmatched :
    (ls ++ unmatched ls rs).Perm (rs ++ unmatched rs ls) := by
  rw [List.perm_iff_count]
  intro x
  rw [List.count_append, List.count_append, count_unmatched, count_unmatched]
  omega

theorem unmatched_disjoint : ∀ x ∈ unmatched rs ls, x ∉ unmatched ls rs := by
  intro x hx hmem
  have hleft := List.count_pos_iff.mpr hx
  have hright := List.count_pos_iff.mpr hmem
  rw [count_unmatched] at hleft hright
  omega

theorem unmatched_eq_nil_iff :
    unmatched rs ls = [] ∧ unmatched ls rs = [] ↔ ls.Perm rs := by
  have hnil : ∀ available ls : List String,
      unmatched available ls = [] ↔ ∀ x, ls.count x ≤ available.count x := by
    intro available ls
    rw [List.eq_nil_iff_forall_not_mem]
    refine forall_congr' fun x => ?_
    rw [← List.count_eq_zero, count_unmatched, Nat.sub_eq_zero_iff_le]
  rw [hnil, hnil, List.perm_iff_count, ← forall_and]
  exact forall_congr' fun x => (Nat.le_antisymm_iff).symm

end Unmatched

/-! ## Sections of one name -/

/-- Induction over the sections of a tree. -/
@[elab_as_elim]
theorem Node.sectionInduction {motive : Node → Prop}
    (step : ∀ n : Node, (∀ name, ∀ c ∈ n.childrenNamed name, motive c) → motive n) (n : Node) :
    motive n :=
  step n fun _ c _ => sectionInduction step c
termination_by n
decreasing_by exact Node.sizeOf_lt_of_mem_childrenNamed (by assumption)

/-- Compares what stands at one position on both sides. -/
def pairDifference (opts : DiffOptions) (path : String) : Option Node → Option Node → List DiffEntry
  | some l, some r => compareNodes opts path l r
  | some l, none => [⟨path, .removed l.marker l.sectionLines⟩]
  | none, some r => [⟨path, .added r.marker r.sectionLines⟩]
  | none, none => []

/-- Compares the sections of one name below two nodes. -/
def namedDifferences (opts : DiffOptions) (path name : String) (ls rs : List Node) :
    List DiffEntry :=
  countMismatch path name ls.length rs.length ++
    (List.range (max ls.length rs.length)).flatMap fun i =>
      pairDifference opts (childPath path name (max ls.length rs.length) i) ls[i]? rs[i]?

/-- What differs at two nodes of one kind and below them. -/
def nodeDifferences (opts : DiffOptions) (path : String) (l r : Node) : List DiffEntry :=
  ownDifference path l r ++
    ((sectionNames l r).filter fun name => name ∉ opts.ignored).flatMap fun name =>
      namedDifferences opts path name (l.childrenNamed name) (r.childrenNamed name)

theorem compareNodes_eq (opts : DiffOptions) (path : String) (l r : Node) :
    compareNodes opts path l r =
      if l.kind ≠ r.kind then [⟨path, .structural (.kinds l.kind r.kind)⟩]
      else if opts.includeIdentical && l.kind = .sect && (nodeDifferences opts path l r).isEmpty then
        [⟨path, .unchanged⟩]
      else nodeDifferences opts path l r := by
  have hpair : ∀ path (ls rs : List Node) (i : Nat),
      pairDifference opts path ls[i]? rs[i]? =
        pairDifference opts path (ls.attach[i]?.map Subtype.val) rs[i]? := by
    intro path ls rs i
    rw [← List.getElem?_map, List.attach_map_subtype_val]
  rw [compareNodes]
  simp only [List.length_attach]
  generalize hnested : List.flatMap _ (List.filter _ _) = nested
  have hnamed : nested = ((sectionNames l r).filter fun name => name ∉ opts.ignored).flatMap
      fun name =>
        namedDifferences opts path name (l.childrenNamed name) (r.childrenNamed name) := by
    rw [← hnested]
    refine List.flatMap_congr fun name _ => congrArg _ (List.flatMap_congr fun i _ => ?_)
    rw [hpair]
    cases (l.childrenNamed name).attach[i]? <;> cases (r.childrenNamed name)[i]? <;> rfl
  rw [hnamed]
  rfl

/-! ## Agreement -/

/-- Nodes that agree in their own right, and in whose sections of each name, paired in order, the
same holds. -/
inductive Agree (own : Node → Node → Prop) : Node → Node → Prop where
  | intro {l r : Node} : own l r →
      (∀ name, (l.childrenNamed name).length = (r.childrenNamed name).length) →
      (∀ (name : String) (i : Nat) (lc rc : Node), (l.childrenNamed name)[i]? = some lc →
        (r.childrenNamed name)[i]? = some rc → Agree own lc rc) →
      Agree own l r

/-- Nodes with the same marker and the same body lines in some order. -/
def SameBody (l r : Node) : Prop :=
  l.marker = r.marker ∧ l.bodyLines.Perm r.bodyLines

theorem agree_iff {own : Node → Node → Prop} {l r : Node} :
    Agree own l r ↔ own l r ∧ ∀ name,
      (l.childrenNamed name).length = (r.childrenNamed name).length ∧
        ∀ (i : Nat) (lc rc : Node), (l.childrenNamed name)[i]? = some lc →
          (r.childrenNamed name)[i]? = some rc → Agree own lc rc := by
  constructor
  · rintro ⟨hown, hlength, hsections⟩
    exact ⟨hown, fun name => ⟨hlength name, hsections name⟩⟩
  · rintro ⟨hown, hsections⟩
    exact .intro hown (fun name => (hsections name).1) fun name => (hsections name).2

theorem mem_distinct {s : String} {l : List String} : s ∈ distinct l ↔ s ∈ l := by
  have hfold : ∀ seen : List String,
      s ∈ l.foldl (fun seen s => if s ∈ seen then seen else seen ++ [s]) seen ↔
        s ∈ seen ∨ s ∈ l := by
    induction l with
    | nil => simp
    | cons x l ih =>
      intro seen
      rw [List.foldl_cons, ih]
      split_ifs with hx
      · simp only [List.mem_cons]
        constructor
        · tauto
        · rintro (h | rfl | h)
          · exact Or.inl h
          · exact Or.inl hx
          · exact Or.inr h
      · simp only [List.mem_append, List.mem_cons, List.not_mem_nil, or_false, or_assoc]
  rw [distinct, hfold]
  simp

theorem childrenNamed_eq_nil {l r : Node} {name : String} (h : name ∉ sectionNames l r) :
    l.childrenNamed name = [] ∧ r.childrenNamed name = [] := by
  rw [sectionNames, mem_distinct, List.map_append, List.mem_append, not_or] at h
  have hnil : ∀ n : Node, name ∉ n.sections.map (·.name) → n.childrenNamed name = [] := by
    intro n hn
    refine List.filter_eq_nil_iff.mpr fun c hc hname => hn ?_
    exact List.mem_map.mpr ⟨c, hc, of_decide_eq_true hname⟩
  exact ⟨hnil l h.1, hnil r h.2⟩

theorem kind_of_mem_childrenNamed {n c : Node} {name : String} (h : c ∈ n.childrenNamed name) :
    c.kind = .sect :=
  of_decide_eq_true (List.mem_filter.mp (List.mem_of_mem_filter h)).2

section Nothing

variable {opts : DiffOptions} {path name : String} {l r : Node} {ls rs : List Node}

theorem ownDifference_eq_nil_iff : ownDifference path l r = [] ↔ SameBody l r := by
  rw [SameBody, ← unmatched_eq_nil_iff, ownDifference]
  by_cases hmarker : l.marker = r.marker <;> simp [hmarker]

theorem pairDifference_ne_nil {i : Nat} (h : i < max ls.length rs.length)
    (hlength : ls.length ≤ i ∨ rs.length ≤ i) : pairDifference opts path ls[i]? rs[i]? ≠ [] := by
  rcases hlength with hi | hi
  · have hr : i < rs.length := by omega
    rw [List.getElem?_eq_none hi, List.getElem?_eq_getElem hr]
    exact List.cons_ne_nil _ _
  · have hl : i < ls.length := by omega
    rw [List.getElem?_eq_none hi, List.getElem?_eq_getElem hl]
    exact List.cons_ne_nil _ _

/-- Of the sections of one name nothing differs exactly if there are as many on both sides and
nothing differs in any two at one position. -/
theorem namedDifferences_eq_nil_iff :
    namedDifferences opts path name ls rs = [] ↔ ls.length = rs.length ∧
      ∀ (i : Nat) (lc rc : Node), ls[i]? = some lc → rs[i]? = some rc →
        compareNodes opts (childPath path name (max ls.length rs.length) i) lc rc = [] := by
  rw [namedDifferences, List.append_eq_nil_iff, List.flatMap_eq_nil_iff]
  constructor
  · rintro ⟨-, h⟩
    have hlength : ls.length = rs.length := by
      by_contra hne
      have hi : min ls.length rs.length < max ls.length rs.length := by omega
      exact pairDifference_ne_nil hi (by omega) (h _ (List.mem_range.mpr hi))
    refine ⟨hlength, fun i lc rc hl hr => ?_⟩
    have hi := (List.getElem?_eq_some_iff.mp hl).1
    have hpair := h i (List.mem_range.mpr (by omega))
    rwa [hl, hr] at hpair
  · rintro ⟨hlength, h⟩
    refine ⟨by simp [countMismatch, hlength], fun i hi => ?_⟩
    rw [List.mem_range] at hi
    have hl := List.getElem?_eq_getElem (show i < ls.length by omega)
    have hr := List.getElem?_eq_getElem (show i < rs.length by omega)
    rw [hl, hr]
    exact h i _ _ hl hr

theorem nodeDifferences_eq_nil_iff (hopts : opts.ignored = []) :
    nodeDifferences opts path l r = [] ↔ SameBody l r ∧ ∀ name,
      namedDifferences opts path name (l.childrenNamed name) (r.childrenNamed name) = [] := by
  rw [nodeDifferences, List.append_eq_nil_iff, ownDifference_eq_nil_iff, List.flatMap_eq_nil_iff]
  refine and_congr_right fun _ => ⟨fun h name => ?_, fun h name _ => h name⟩
  by_cases hname : name ∈ sectionNames l r
  · exact h name (List.mem_filter.mpr ⟨hname, by simp [hopts]⟩)
  · obtain ⟨hl, hr⟩ := childrenNamed_eq_nil hname
    rw [hl, hr]
    rfl

theorem compareNodes_eq_nil_iff (hkind : l.kind = r.kind) :
    compareNodes {} path l r = [] ↔ nodeDifferences {} path l r = [] := by
  rw [compareNodes_eq, if_neg (not_not.mpr hkind)]
  rfl

end Nothing

/-- A comparison finds nothing exactly if the two sides agree. -/
theorem compareNodes_eq_nil_iff_agree (l : Node) : ∀ (path : String) (r : Node), l.kind = r.kind →
    (compareNodes {} path l r = [] ↔ Agree SameBody l r) := by
  induction l using Node.sectionInduction with
  | step l ih =>
    intro path r hkind
    rw [compareNodes_eq_nil_iff hkind, nodeDifferences_eq_nil_iff rfl, agree_iff]
    refine and_congr_right fun _ => forall_congr' fun name => ?_
    rw [namedDifferences_eq_nil_iff]
    refine and_congr_right fun _ => forall_congr' fun i => forall₂_congr fun lc rc =>
      forall₂_congr fun hl hr => ?_
    have hlc := List.mem_of_getElem? hl
    have hrc := List.mem_of_getElem? hr
    exact ih name lc hlc _ rc
      ((kind_of_mem_childrenNamed hlc).trans (kind_of_mem_childrenNamed hrc).symm)

/-! ## Entries -/

/-- The nodes of two trees that are compared with each other, and the path they stand at. -/
inductive Paired (left right : Node) : String → Node → Node → Prop where
  | root : Paired left right "script" left right
  | sect {path name : String} {i : Nat} {l r lc rc : Node} :
      Paired left right path l r → (l.childrenNamed name)[i]? = some lc →
        (r.childrenNamed name)[i]? = some rc →
        Paired left right
          (childPath path name (max (l.childrenNamed name).length (r.childrenNamed name).length) i)
          lc rc

theorem eq_of_mem_ownDifference {path : String} {l r : Node} {e : DiffEntry}
    (h : e ∈ ownDifference path l r) :
    ∃ marker, e = ⟨path, .changed marker (unmatched r.bodyLines l.bodyLines)
      (unmatched l.bodyLines r.bodyLines)⟩ := by
  rw [ownDifference, List.mem_ite_nil_right] at h
  exact ⟨_, List.mem_singleton.mp h.2⟩

section Changed

variable {opts : DiffOptions} {marker : Option MarkerChange} {removed added : List String}

/-- That a section changed is said of the two nodes themselves, or where two sections below them
are compared. -/
theorem of_mem_compareNodes {path : String} {l r : Node} {e : DiffEntry}
    (he : e ∈ compareNodes opts path l r) (hchanged : e.difference = .changed marker removed added) :
    e ∈ ownDifference path l r ∨
      ∃ (name : String) (i : Nat) (lc rc : Node), (l.childrenNamed name)[i]? = some lc ∧
        (r.childrenNamed name)[i]? = some rc ∧
        e ∈ compareNodes opts (childPath path name
          (max (l.childrenNamed name).length (r.childrenNamed name).length) i) lc rc := by
  -- An entry of another sort does not count.
  have hsort : ∀ {p : String} {d : Difference}, e ∈ [(⟨p, d⟩ : DiffEntry)] →
      d = .changed marker removed added := fun h => by
    rw [← hchanged, List.mem_singleton.mp h]
  rw [compareNodes_eq] at he
  split_ifs at he
  · cases hsort he
  · cases hsort he
  rw [nodeDifferences, List.mem_append, List.mem_flatMap] at he
  rcases he with he | ⟨name, -, he⟩
  · exact Or.inl he
  rw [namedDifferences, List.mem_append, List.mem_flatMap] at he
  rcases he with he | ⟨i, -, he⟩
  · rw [countMismatch, List.mem_ite_nil_right] at he
    cases hsort he.2
  cases hl : (l.childrenNamed name)[i]? with
  | none =>
    cases hr : (r.childrenNamed name)[i]? with
    | none =>
      rw [hl, hr] at he
      cases he
    | some rc =>
      rw [hl, hr] at he
      cases hsort he
  | some lc =>
    cases hr : (r.childrenNamed name)[i]? with
    | none =>
      rw [hl, hr] at he
      cases hsort he
    | some rc =>
      rw [hl, hr] at he
      exact Or.inr ⟨name, i, lc, rc, hl, hr, he⟩

/-- An entry about a section that changed says how two nodes differ that were paired. -/
theorem exists_paired_of_mem_compareNodes {left right : Node} {e : DiffEntry}
    (hchanged : e.difference = .changed marker removed added) (l : Node) :
    ∀ {path : String} {r : Node}, Paired left right path l r → e ∈ compareNodes opts path l r →
      ∃ l' r', Paired left right e.path l' r' ∧ removed = unmatched r'.bodyLines l'.bodyLines ∧
        added = unmatched l'.bodyLines r'.bodyLines := by
  induction l using Node.sectionInduction with
  | step l ih =>
    intro path r hpaired he
    rcases of_mem_compareNodes he hchanged with he | ⟨name, i, lc, rc, hl, hr, he⟩
    · obtain ⟨marker', rfl⟩ := eq_of_mem_ownDifference he
      cases hchanged
      exact ⟨l, r, hpaired, rfl, rfl⟩
    · exact ih name lc (List.mem_of_getElem? hl) (hpaired.sect hl hr) he

end Changed

/-- Nothing differs exactly if two scripts agree, and what an entry about a changed section shows
makes up for what one side has more than the other, without a line on both. -/
theorem diff_eq_nil_iff_and_changed {left right : Node} (hkind : left.kind = right.kind) :
    (diff {} left right = [] ↔ Agree SameBody left right) ∧
      ∀ e ∈ diff {} left right, ∀ marker removed added,
        e.difference = .changed marker removed added →
        ∃ l r, Paired left right e.path l r ∧
          (l.bodyLines ++ added).Perm (r.bodyLines ++ removed) ∧ ∀ x ∈ removed, x ∉ added := by
  refine ⟨compareNodes_eq_nil_iff_agree left "script" right hkind, ?_⟩
  intro e he marker removed added hchanged
  obtain ⟨l, r, hpaired, rfl, rfl⟩ := exists_paired_of_mem_compareNodes hchanged left .root he
  exact ⟨l, r, hpaired, perm_append_unmatched _ _, unmatched_disjoint _ _⟩

/-- A script of single commands. -/
def commandScript (commands : List String) : Node :=
  document none (commands.map .line)

/-- A line that stands twice on the left and once on the right is cancelled once. -/
theorem diff_commandScript :
    let left := commandScript ["a", "b", "a"]
    let right := commandScript ["a", "c"]
    left.kind = right.kind ∧ diff {} left right = [⟨"script", .changed none ["b", "a"] ["c"]⟩] ∧
      ¬Agree SameBody left right ∧
      ∃ l r, Paired left right "script" l r ∧
        (l.bodyLines ++ ["c"]).Perm (r.bodyLines ++ ["b", "a"]) ∧ ∀ x ∈ ["b", "a"], x ∉ ["c"] := by
  intro left right
  have hkind : left.kind = right.kind := rfl
  have hdiff : diff {} left right = [⟨"script", .changed none ["b", "a"] ["c"]⟩] := by
    rw [diff, compareNodes_eq]
    decide
  obtain ⟨hempty, hchanged⟩ := diff_eq_nil_iff_and_changed hkind
  rw [hdiff] at hempty hchanged
  refine ⟨hkind, hdiff, fun hagree => ?_, ?_⟩
  · cases hempty.mpr hagree
  · exact hchanged _ (List.mem_singleton_self _) none ["b", "a"] ["c"] rfl

/-! ## Interpreters -/

/-- The trimmed lines of a node's own body, without its interpreter. -/
def Node.outerLines (n : Node) : List String :=
  (n.children.filter isBody).flatMap fun c => trimmedLines (c.lines 0)

/-- Nodes with the same marker, the same interpreter and the same other lines of their bodies. -/
def SameParts (l r : Node) : Prop :=
  l.marker = r.marker ∧ (l.kind = .document → l.text = r.text) ∧ l.outerLines.Perm r.outerLines

/-- An interpreter is compared like any other line of the body : it may stand elsewhere. -/
theorem diff_interpreterElsewhere :
    let left := document (some "#!/bin/sh") []
    let right := document none [.blank, .line "#!/bin/sh"]
    diff {} left right = [] ∧ ¬Agree SameParts left right := by
  intro left right
  constructor
  · rw [diff, compareNodes_eq]
    decide
  · rintro ⟨⟨-, htext, -⟩, -, -⟩
    cases htext rfl

/-! ## Entries the other way round -/

/-- The change of a marker the other way round. -/
def MarkerChange.exchanged (m : MarkerChange) : MarkerChange :=
  ⟨m.after, m.before⟩

/-- A mismatch seen from the other side. -/
def Mismatch.exchanged : Mismatch → Mismatch
  | kinds l r => kinds r l
  | counts name l r => counts name r l

/-- A difference seen from the other side. -/
def Difference.exchanged : Difference → Difference
  | unchanged => unchanged
  | changed marker ls rs => changed (marker.map MarkerChange.exchanged) rs ls
  | removed marker body => added marker body
  | added marker body => removed marker body
  | structural cause => structural cause.exchanged

/-- An entry seen from the other side, at the same path. -/
def DiffEntry.exchanged (e : DiffEntry) : DiffEntry :=
  ⟨e.path, e.difference.exchanged⟩

/-! ## Names of sections -/

theorem nodup_distinct (l : List String) : (distinct l).Nodup := by
  have hfold : ∀ seen : List String, seen.Nodup →
      (l.foldl (fun seen s => if s ∈ seen then seen else seen ++ [s]) seen).Nodup := by
    induction l with
    | nil => exact fun _ h => h
    | cons s l ih =>
      intro seen h
      rw [List.foldl_cons]
      refine ih _ ?_
      split_ifs with hs
      · exact h
      · exact List.concat_eq_append ▸ h.concat hs
  exact hfold [] List.nodup_nil

/-- The sections below two nodes have the same names, whichever side comes first. -/
theorem sectionNames_perm (l r : Node) : (sectionNames r l).Perm (sectionNames l r) := by
  refine (List.perm_ext_iff_of_nodup (nodup_distinct _) (nodup_distinct _)).mpr fun name => ?_
  simp only [mem_distinct, List.map_append, List.mem_append]
  exact or_comm

/-! ## Parts of a comparison -/

section Parts

variable {opts : DiffOptions} {path name : String}

theorem ownDifference_exchanged (l r : Node) :
    ownDifference path r l = (ownDifference path l r).map DiffEntry.exchanged := by
  have hmarker : (if r.marker = l.marker then none else some (⟨r.marker, l.marker⟩ : MarkerChange)) =
      (if l.marker = r.marker then none
        else some (⟨l.marker, r.marker⟩ : MarkerChange)).map MarkerChange.exchanged := by
    by_cases h : l.marker = r.marker
    · rw [if_pos h, if_pos h.symm]
      rfl
    · rw [if_neg h, if_neg fun h' => h h'.symm]
      rfl
  have hsome : ∀ m : Option MarkerChange, (m.map MarkerChange.exchanged).isSome = m.isSome :=
    fun _ => Option.isSome_map
  simp only [ownDifference, hmarker, hsome, Bool.or_right_comm]
  split_ifs <;> rfl

theorem countMismatch_exchanged (l r : Nat) :
    countMismatch path name r l = (countMismatch path name l r).map DiffEntry.exchanged := by
  unfold countMismatch
  rw [Nat.max_comm r l, show decide (r ≠ l) = decide (l ≠ r) from decide_eq_decide.mpr ne_comm]
  split_ifs <;> rfl

theorem pairDifference_exchanged {a b : Option Node}
    (h : ∀ l ∈ a, ∀ r ∈ b, (compareNodes opts path r l).Perm
      ((compareNodes opts path l r).map DiffEntry.exchanged)) :
    (pairDifference opts path b a).Perm
      ((pairDifference opts path a b).map DiffEntry.exchanged) := by
  cases a with
  | none => cases b <;> exact .refl _
  | some l =>
    cases b with
    | none => exact .refl _
    | some r => exact h l rfl r rfl

theorem namedDifferences_exchanged {ls rs : List Node}
    (h : ∀ l ∈ ls, ∀ (path : String) (r : Node), (compareNodes opts path r l).Perm
      ((compareNodes opts path l r).map DiffEntry.exchanged)) :
    (namedDifferences opts path name rs ls).Perm
      ((namedDifferences opts path name ls rs).map DiffEntry.exchanged) := by
  rw [namedDifferences, namedDifferences, List.map_append, List.map_flatMap,
    countMismatch_exchanged, Nat.max_comm rs.length]
  refine List.Perm.append_left _ (List.Perm.flatMap_left _ fun i _ => ?_)
  exact pairDifference_exchanged fun l hl r _ => h l (List.mem_of_getElem? hl) _ r

end Parts

/-! ## Whole comparisons -/

/-- Two nodes are compared alike from either side. -/
theorem compareNodes_exchanged (opts : DiffOptions) (l : Node) : ∀ (path : String) (r : Node),
    (compareNodes opts path r l).Perm
      ((compareNodes opts path l r).map DiffEntry.exchanged) := by
  induction l using Node.sectionInduction with
  | step l ih =>
    intro path r
    have hnode : (nodeDifferences opts path r l).Perm
        ((nodeDifferences opts path l r).map DiffEntry.exchanged) := by
      rw [nodeDifferences, nodeDifferences, List.map_append, List.map_flatMap,
        ownDifference_exchanged]
      refine List.Perm.append_left _ ?_
      refine ((sectionNames_perm l r).filter _).flatMap_right _ |>.trans ?_
      exact List.Perm.flatMap_left _ fun name _ => namedDifferences_exchanged (ih name)
    have hempty : (nodeDifferences opts path r l).isEmpty =
        (nodeDifferences opts path l r).isEmpty :=
      hnode.isEmpty_eq.trans List.isEmpty_map
    rw [compareNodes_eq, compareNodes_eq]
    by_cases hkind : l.kind = r.kind
    · rw [if_neg (not_not.mpr hkind), if_neg (not_not.mpr hkind.symm), hempty, hkind]
      split_ifs
      · exact .refl _
      · exact hnode
    · rw [if_pos hkind, if_pos (Ne.symm hkind)]
      exact .refl _

/-- A comparison finds the same from either side : the entries of one are those of the other with
their sides exchanged, each as often. -/
theorem diff_exchanged (opts : DiffOptions) (left right : Node) :
    (diff opts right left).Perm ((diff opts left right).map DiffEntry.exchanged) :=
  compareNodes_exchanged opts left "script" right

end NetworkCompiler.Script
