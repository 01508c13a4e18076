import Mathlib.Data.List.TakeWhile
import NetworkCompiler.Proofs.Script.Differences
import NetworkCompiler.Proofs.Text.Reading

/-!
# Where entries stand

What a comparison says about two sections that it compares (`Compared`) stands at or beneath their
path (`beneath_of_mem_compareNodes`). If no name of a section has a dot or a square bracket in it
(`PlainlyNamed`), then nothing else stands there, so that the entries of two sections can be told
from their paths (`mem_diff_and_beneath_iff`).
-/

namespace NetworkCompiler.Script

/-! ## Paths -/

/-- The paths at and below a path. -/
def Beneath (p q : String) : Prop :=
  q = p ∨ ∃ rest, q = p ++ "." ++ rest

/-- What the path of a section adds to the path above it, behind a dot. -/
def segment (name : String) (count i : Nat) : String :=
  if count = 1 then name else s!"{name}[{i + 1}]"

/-- A name that can be told from what else a path has in it. -/
def IsPlainName (name : String) : Prop :=
  '.' ∉ name.toList ∧ '[' ∉ name.toList

instance (name : String) : Decidable (IsPlainName name) :=
  inferInstanceAs (Decidable (_ ∧ _))

section Paths

variable {p q r name : String} {count i : Nat}

theorem childPath_eq : childPath p name count i = p ++ "." ++ segment name count i := by
  rw [childPath, segment]
  split_ifs
  · rfl
  · simp only [String.append_assoc]
    rfl

theorem beneath_iff : Beneath p q ↔ p.toList ++ ['.'] <+: q.toList ++ ['.'] := by
  constructor
  · rintro (rfl | ⟨rest, rfl⟩)
    · exact List.prefix_rfl
    · simp [List.append_assoc]
  · rintro ⟨rest, hrest⟩
    rcases List.eq_nil_or_concat rest with rfl | ⟨rest, c, rfl⟩
    · left
      rw [List.append_nil] at hrest
      exact String.toList_injective (List.append_cancel_right hrest).symm
    · right
      rw [List.concat_eq_append, ← List.append_assoc] at hrest
      obtain ⟨hq, -⟩ := List.append_inj' hrest rfl
      refine ⟨String.ofList rest, String.toList_injective ?_⟩
      simp [← hq]

theorem Beneath.refl : Beneath p p :=
  Or.inl rfl

theorem Beneath.trans (hpq : Beneath p q) (hqr : Beneath q r) : Beneath p r :=
  beneath_iff.mpr ((beneath_iff.mp hpq).trans (beneath_iff.mp hqr))

theorem beneath_childPath : Beneath p (childPath p name count i) :=
  Or.inr ⟨_, childPath_eq⟩

theorem not_beneath_childPath_self : ¬Beneath (childPath p name count i) p := by
  rw [beneath_iff, childPath_eq]
  intro h
  have hlength := h.length_le
  simp only [String.toList_append, List.length_append] at hlength
  have hdot : ".".toList.length = 1 := rfl
  omega

/-- One part below a path leads to what is beneath it. -/
theorem segment_unique {s t : String} (hs : '.' ∉ s.toList) (ht : '.' ∉ t.toList)
    (hsq : Beneath (p ++ "." ++ s) q) (htq : Beneath (p ++ "." ++ t) q) : s = t := by
  obtain ⟨b, hb⟩ := beneath_iff.mp hsq
  obtain ⟨c, hc⟩ := beneath_iff.mp htq
  have hrest : s.toList ++ '.' :: b = t.toList ++ '.' :: c := by
    simpa using hb.trans hc.symm
  have hcut := congrArg (Text.Chars.cutAt? '.') hrest
  rw [Text.Chars.cutAt?_append_cons hs, Text.Chars.cutAt?_append_cons ht] at hcut
  exact String.toList_injective (Prod.mk.inj (Option.some.inj hcut)).1

theorem toList_segment (hcount : count ≠ 1) :
    (segment name count i).toList = name.toList ++ '[' :: (toString (i + 1)).toList ++ [']'] := by
  rw [segment, if_neg hcount]
  simp only [String.toList_append, List.append_assoc]
  rfl

theorem IsPlainName.segment (h : IsPlainName name) : '.' ∉ (segment name count i).toList := by
  by_cases hcount : count = 1
  · rw [Script.segment, if_pos hcount]
    exact h.1
  · have hdigits : '.' ∉ Nat.toDigits 10 (i + 1) := by
      intro hmem
      cases Nat.isDigit_of_mem_toDigits (by decide) (by decide) hmem
    simp [toList_segment hcount, h.1, hdigits]

/-- A part of a path leads to one name. -/
theorem name_of_segment_eq {name' : String} {count' i' : Nat} (h : IsPlainName name)
    (h' : IsPlainName name') (heq : segment name count i = segment name' count' i') :
    name = name' := by
  have hname : ∀ {name : String} {count i : Nat}, IsPlainName name →
      (segment name count i).toList.takeWhile (· ≠ '[') = name.toList := by
    intro name count i h
    have hbrackets : ∀ c ∈ name.toList, decide (c ≠ '[') = true := by
      intro c hc
      exact decide_eq_true fun hbracket => h.2 (hbracket ▸ hc)
    by_cases hcount : count = 1
    · rw [Script.segment, if_pos hcount]
      exact List.takeWhile_eq_self_iff.mpr hbrackets
    · rw [toList_segment hcount, List.append_assoc, List.cons_append]
      exact (Text.Chars.takeWhile_append_cons hbrackets rfl _).1
  apply String.toList_injective
  rw [← hname h, heq, hname h']

/-- A part of a path leads to one number. -/
theorem number_of_segment_eq {i' : Nat} (hi : i < count) (hi' : i' < count)
    (heq : segment name count i = segment name count i') : i = i' := by
  by_cases hcount : count = 1
  · omega
  · have hlists := congrArg String.toList heq
    rw [toList_segment hcount, toList_segment hcount] at hlists
    have hdigits := List.append_cancel_right hlists
    rw [List.append_cancel_left_eq, List.cons.injEq] at hdigits
    exact Nat.succ.inj (Text.Chars.toString_inj.mp (String.toList_injective hdigits.2))

/-- The name alone is no part with a number. -/
theorem segment_ne (h : IsPlainName name) (hcount : count ≠ 1) : segment name count i ≠ name := by
  intro heq
  refine h.2 ?_
  rw [← heq, toList_segment hcount]
  simp

end Paths

/-! ## Entries beneath a path -/

section Entries

variable {opts : DiffOptions} {path name : String} {l r : Node} {ls rs : List Node} {e : DiffEntry}

theorem mem_nodeDifferences : e ∈ nodeDifferences opts path l r ↔ e ∈ ownDifference path l r ∨
    ∃ name, name ∉ opts.ignored ∧
      e ∈ namedDifferences opts path name (l.childrenNamed name) (r.childrenNamed name) := by
  rw [nodeDifferences, List.mem_append, List.mem_flatMap]
  refine or_congr_right (exists_congr fun name => ?_)
  rw [List.mem_filter, decide_eq_true_eq, and_assoc, and_iff_right_iff_imp]
  rintro ⟨-, he⟩
  by_contra hname
  obtain ⟨hl, hr⟩ := childrenNamed_eq_nil hname
  rw [hl, hr] at he
  cases he

theorem mem_namedDifferences : e ∈ namedDifferences opts path name ls rs ↔
    e ∈ countMismatch path name ls.length rs.length ∨
      ∃ i < max ls.length rs.length,
        e ∈ pairDifference opts (childPath path name (max ls.length rs.length) i)
          ls[i]? rs[i]? := by
  simp only [namedDifferences, List.mem_append, List.mem_flatMap, List.mem_range]

theorem path_of_mem_ownDifference (h : e ∈ ownDifference path l r) : e.path = path := by
  obtain ⟨marker, rfl⟩ := eq_of_mem_ownDifference h
  rfl

theorem of_mem_countMismatch {m n : Nat} (h : e ∈ countMismatch path name m n) :
    e.path = path ++ "." ++ name ∧ max m n ≠ 1 := by
  rw [countMismatch, List.mem_ite_nil_right] at h
  obtain ⟨hcount, he⟩ := h
  rw [Bool.and_eq_true, decide_eq_true_eq] at hcount
  rw [List.mem_singleton.mp he]
  exact ⟨rfl, by omega⟩

/-- What is said about one position stands at or beneath its path if this is so of two nodes. -/
theorem beneath_of_pair {a b : Option Node} (hcompared : ∀ lc rc, a = some lc → b = some rc →
    e ∈ compareNodes opts path lc rc → Beneath path e.path)
    (h : e ∈ pairDifference opts path a b) : Beneath path e.path := by
  cases a with
  | none =>
    cases b with
    | none => cases h
    | some rc => exact List.mem_singleton.mp h ▸ .refl
  | some lc =>
    cases b with
    | none => exact List.mem_singleton.mp h ▸ .refl
    | some rc => exact hcompared lc rc rfl rfl h

/-- What is said about two nodes stands at or beneath their path. -/
theorem beneath_of_mem_compareNodes (l : Node) : ∀ {path : String} {r : Node},
    e ∈ compareNodes opts path l r → Beneath path e.path := by
  induction l using Node.sectionInduction with
  | step l ih =>
    intro path r he
    rw [compareNodes_eq] at he
    split_ifs at he
    · rw [List.mem_singleton.mp he]
      exact .refl
    · rw [List.mem_singleton.mp he]
      exact .refl
    rcases mem_nodeDifferences.mp he with he | ⟨name, -, he⟩
    · exact path_of_mem_ownDifference he ▸ .refl
    rcases mem_namedDifferences.mp he with he | ⟨i, -, he⟩
    · exact Or.inr ⟨name, (of_mem_countMismatch he).1⟩
    refine beneath_childPath.trans (beneath_of_pair (fun lc rc hl _ hcompared => ?_) he)
    exact ih name lc (List.mem_of_getElem? hl) hcompared

theorem beneath_of_mem_pairDifference {a b : Option Node} (h : e ∈ pairDifference opts path a b) :
    Beneath path e.path :=
  beneath_of_pair (fun lc _ _ _ => beneath_of_mem_compareNodes lc) h

end Entries

/-! ## Plain names -/

/-- Trees whose sections have plain names. -/
inductive PlainlyNamed : Node → Prop where
  | intro {n : Node} : (∀ c ∈ n.sections, IsPlainName c.name) → (∀ c ∈ n.sections, PlainlyNamed c) →
      PlainlyNamed n

theorem PlainlyNamed.of_mem {n c : Node} {name : String} (h : PlainlyNamed n)
    (hc : c ∈ n.childrenNamed name) : IsPlainName name ∧ PlainlyNamed c := by
  obtain ⟨hnames, hbelow⟩ := h
  obtain ⟨hmem, hname⟩ := List.mem_filter.mp hc
  exact ⟨of_decide_eq_true hname ▸ hnames c hmem, hbelow c hmem⟩

section Plain

variable {opts : DiffOptions} {path name : String} {l r : Node} {e : DiffEntry} {i : Nat}

/-- Names of sections of which there are any on one of two sides. -/
theorem isPlain_of_lt (hl : PlainlyNamed l) (hr : PlainlyNamed r)
    (hi : i < max (l.childrenNamed name).length (r.childrenNamed name).length) :
    IsPlainName name := by
  have hsome : 0 < (l.childrenNamed name).length ∨ 0 < (r.childrenNamed name).length := by omega
  rcases hsome with h | h
  · exact (hl.of_mem (List.getElem_mem h)).1
  · exact (hr.of_mem (List.getElem_mem h)).1

theorem mem_compareNodes_of_mem_nodeDifferences (hkind : l.kind = r.kind)
    (he : e ∈ nodeDifferences opts path l r) : e ∈ compareNodes opts path l r := by
  rw [compareNodes_eq, if_neg (not_not.mpr hkind), if_neg]
  · exact he
  · intro hempty
    rw [Bool.and_eq_true, List.isEmpty_iff] at hempty
    rw [hempty.2] at he
    cases he

/-- What is said about the sections at one position is said about the two nodes above them. -/
theorem mem_compareNodes_of_pair (hkind : l.kind = r.kind) (hname : name ∉ opts.ignored)
    (hi : i < max (l.childrenNamed name).length (r.childrenNamed name).length)
    (he : e ∈ pairDifference opts (childPath path name
      (max (l.childrenNamed name).length (r.childrenNamed name).length) i)
      (l.childrenNamed name)[i]? (r.childrenNamed name)[i]?) :
    e ∈ compareNodes opts path l r :=
  mem_compareNodes_of_mem_nodeDifferences hkind
    (mem_nodeDifferences.mpr (Or.inr ⟨name, hname, mem_namedDifferences.mpr (Or.inr ⟨i, hi, he⟩)⟩))

/-- That a node changed is said under its path only if it did so itself. -/
theorem changed_mem_compareNodes_iff (opts : DiffOptions) (hkind : l.kind = r.kind)
    {marker : Option MarkerChange} {removed added : List String} :
    ⟨path, .changed marker removed added⟩ ∈ compareNodes opts path l r ↔
      ⟨path, .changed marker removed added⟩ ∈ ownDifference path l r := by
  constructor
  · intro he
    rcases of_mem_compareNodes he rfl with hown | ⟨name, i, lc, rc, -, -, hbelow⟩
    · exact hown
    · have hbeneath := beneath_of_mem_compareNodes lc hbelow
      exact absurd hbeneath not_beneath_childPath_self
  · intro he
    exact mem_compareNodes_of_mem_nodeDifferences hkind (mem_nodeDifferences.mpr (Or.inl he))

/-- Beneath the path of the sections at one position stands only what is said about them. -/
theorem mem_compareNodes_and_beneath_iff (hkind : l.kind = r.kind) (hl : PlainlyNamed l)
    (hr : PlainlyNamed r) (hname : name ∉ opts.ignored)
    (hi : i < max (l.childrenNamed name).length (r.childrenNamed name).length) :
    (e ∈ compareNodes opts path l r ∧ Beneath (childPath path name
      (max (l.childrenNamed name).length (r.childrenNamed name).length) i) e.path) ↔
      e ∈ pairDifference opts (childPath path name
        (max (l.childrenNamed name).length (r.childrenNamed name).length) i)
        (l.childrenNamed name)[i]? (r.childrenNamed name)[i]? := by
  have hplain := isPlain_of_lt hl hr hi
  constructor
  · rintro ⟨he, hbeneath⟩
    have hchild := hbeneath
    rw [childPath_eq] at hchild
    rw [compareNodes_eq, if_neg (not_not.mpr hkind)] at he
    split_ifs at he
    · rw [List.mem_singleton.mp he] at hbeneath
      exact absurd hbeneath not_beneath_childPath_self
    rcases mem_nodeDifferences.mp he with he | ⟨name', -, he⟩
    · rw [path_of_mem_ownDifference he] at hbeneath
      exact absurd hbeneath not_beneath_childPath_self
    rcases mem_namedDifferences.mp he with he | ⟨i', hi', he⟩
    · -- The number of a repeated section is given without a number behind the name.
      obtain ⟨hpath, hcount⟩ := of_mem_countMismatch he
      have hplain' : IsPlainName name' := by
        refine isPlain_of_lt (i := 0) hl hr ?_
        rw [countMismatch, List.mem_ite_nil_right, Bool.and_eq_true, decide_eq_true_eq] at he
        omega
      have hsegment : segment name _ i = name' :=
        segment_unique hplain.segment hplain'.1 hchild (hpath ▸ .refl)
      have hname' : segment name' 1 0 = name' := rfl
      obtain rfl := name_of_segment_eq hplain hplain' (hsegment.trans hname'.symm)
      exact absurd hsegment (segment_ne hplain hcount)
    · have hplain' := isPlain_of_lt hl hr hi'
      have hchild' := beneath_of_mem_pairDifference he
      rw [childPath_eq] at hchild'
      have hsegment := segment_unique hplain.segment hplain'.segment hchild hchild'
      obtain rfl := name_of_segment_eq hplain hplain' hsegment
      obtain rfl := number_of_segment_eq hi hi' hsegment
      exact he
  · intro he
    exact ⟨mem_compareNodes_of_pair hkind hname hi he, beneath_of_mem_pairDifference he⟩

end Plain

/-! ## Compared sections -/

/-- The nodes of two trees that are compared with each other, and the path they stand at, when the
sections of some names are ignored. -/
inductive Compared (ignored : List String) (left right : Node) : String → Node → Node → Prop where
  | root : Compared ignored left right "script" left right
  | sect {path name : String} {i : Nat} {l r lc rc : Node} : Compared ignored left right path l r →
      name ∉ ignored → (l.childrenNamed name)[i]? = some lc →
        (r.childrenNamed name)[i]? = some rc →
        Compared ignored left right
          (childPath path name (max (l.childrenNamed name).length (r.childrenNamed name).length) i)
          lc rc

section Comparison

variable {opts : DiffOptions} {ignored : List String} {left right l r : Node} {path : String}
  {e : DiffEntry}

theorem Compared.kind_eq (hkind : left.kind = right.kind)
    (h : Compared ignored left right path l r) : l.kind = r.kind := by
  cases h with
  | root => exact hkind
  | sect _ _ hl hr =>
    exact (kind_of_mem_childrenNamed (List.mem_of_getElem? hl)).trans
      (kind_of_mem_childrenNamed (List.mem_of_getElem? hr)).symm

theorem Compared.plainlyNamed (hl : PlainlyNamed left) (hr : PlainlyNamed right)
    (h : Compared ignored left right path l r) : PlainlyNamed l ∧ PlainlyNamed r := by
  induction h with
  | root => exact ⟨hl, hr⟩
  | sect _ _ hlc hrc ih =>
    exact ⟨(ih.1.of_mem (List.mem_of_getElem? hlc)).2, (ih.2.of_mem (List.mem_of_getElem? hrc)).2⟩

theorem mem_diff_of_compared (hkind : left.kind = right.kind)
    (h : Compared opts.ignored left right path l r) (he : e ∈ compareNodes opts path l r) :
    e ∈ diff opts left right := by
  induction h with
  | root => exact he
  | @sect path name i l r lc rc habove hname hl hr ih =>
    refine ih (mem_compareNodes_of_pair (i := i) (habove.kind_eq hkind) hname ?_ ?_)
    · have hlength := (List.getElem?_eq_some_iff.mp hl).1
      omega
    · rw [hl, hr]
      exact he

/-- If names are plain, then the entries at and below the path of two sections that are compared
are what is said about these two. -/
theorem mem_diff_and_beneath_iff (hkind : left.kind = right.kind) (hleft : PlainlyNamed left)
    (hright : PlainlyNamed right) (h : Compared opts.ignored left right path l r) :
    (e ∈ diff opts left right ∧ Beneath path e.path) ↔ e ∈ compareNodes opts path l r := by
  induction h with
  | root => exact and_iff_left_of_imp (beneath_of_mem_compareNodes left)
  | @sect path name i l r lc rc habove hname hl hr ih =>
    have hi : i < max (l.childrenNamed name).length (r.childrenNamed name).length := by
      have hlength := (List.getElem?_eq_some_iff.mp hl).1
      omega
    obtain ⟨hlplain, hrplain⟩ := habove.plainlyNamed hleft hright
    have hat : e ∈ compareNodes opts path l r ∧ _ ↔ _ :=
      mem_compareNodes_and_beneath_iff (habove.kind_eq hkind) hlplain hrplain hname hi
    rw [hl, hr, pairDifference] at hat
    rw [← hat, ← ih, and_assoc]
    exact and_congr_right fun _ => ⟨fun hb => ⟨beneath_childPath.trans hb, hb⟩, And.right⟩

end Comparison

end NetworkCompiler.Script
