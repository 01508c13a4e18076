import NetworkCompiler.Proofs.CommandLine.Places

/-!
# Following paths

Where names lead in a tree with links (`Tree.Leads`), step by step and with the links that may still
be followed. It is what the system does (`walk_eq_ok`, `Leads.walk_eq`), and unlike the system it can
stop at any name and go on from there (`leads_append`). Names lead to one place only
(`Leads.unique`), a dot among them can be left out (`Leads.filter`), and as long as they pass no
link the place is read off the names (`Leads.eq_foldNames`).
-/

namespace NetworkCompiler.Tree

open CommandLine (foldNames namesFrom namesOf)

/-- What a node is, whatever it holds. -/
inductive Kind where
  | file
  | link (target : String)
  | directory
  deriving DecidableEq, Repr

/-- The kind of a node. -/
def kind : Tree → Kind
  | file _ _ => .file
  | link target => .link target
  | dir _ => .directory

/-- The kind of what is at the end of a list of names. -/
def kindAt? (root : Tree) (names : List String) : Option Kind :=
  (root.at? names).map kind

/-- Whether an entry of a directory can be asked for by a name. -/
def IsEntryName (name : String) : Prop :=
  name ≠ "." ∧ name ≠ ".." ∧ name.utf8ByteSize ≤ maxNameLength

instance (name : String) : Decidable (IsEntryName name) :=
  inferInstanceAs (Decidable (_ ∧ _))

variable {root u : Tree} {name target : String} {here names rest place parent xs ys : List String}
  {links links' : Nat} {es : List (String × Tree)} {k : Kind}

/-! ## Kinds -/

theorem at?_append (root : Tree) (xs ys : List String) :
    root.at? (xs ++ ys) = (root.at? xs).bind fun t => t.at? ys := by
  induction xs generalizing root with
  | nil => rfl
  | cons x xs ih =>
    rw [List.cons_append, at?, at?]
    cases root.node? x with
    | none => rfl
    | some u => exact ih u

theorem at?_concat (h : root.at? here = some u) (name : String) :
    root.at? (here ++ [name]) = u.node? name := by
  rw [at?_append, h, Option.bind_some, at?]
  cases u.node? name <;> rfl

theorem kindAt?_eq_some : root.kindAt? names = some k ↔ ∃ u, root.at? names = some u ∧ u.kind = k :=
  Option.map_eq_some_iff

theorem kindAt?_eq_directory :
    root.kindAt? names = some .directory ↔ ∃ es, root.at? names = some (.dir es) := by
  rw [kindAt?_eq_some]
  refine ⟨fun ⟨u, hu, hk⟩ => ?_, fun ⟨es, h⟩ => ⟨_, h, rfl⟩⟩
  cases u with
  | dir es => exact ⟨es, hu⟩
  | file => cases hk
  | link => cases hk

theorem kindAt?_eq_link :
    root.kindAt? names = some (.link target) ↔ root.at? names = some (.link target) := by
  rw [kindAt?_eq_some]
  refine ⟨fun ⟨u, hu, hk⟩ => ?_, fun h => ⟨_, h, rfl⟩⟩
  cases u with
  | dir => cases hk
  | file => cases hk
  | link target =>
    cases hk
    exact hu

theorem kindAt?_eq_file :
    root.kindAt? names = some .file ↔ ∃ content x, root.at? names = some (.file content x) := by
  rw [kindAt?_eq_some]
  refine ⟨fun ⟨u, hu, hk⟩ => ?_, fun ⟨content, x, h⟩ => ⟨_, h, rfl⟩⟩
  cases u with
  | file content x => exact ⟨content, x, hu⟩
  | dir => cases hk
  | link => cases hk

theorem kindAt?_eq_none : root.kindAt? names = none ↔ root.at? names = none :=
  Option.map_eq_none_iff

theorem kindAt?_concat (h : root.at? here = some u) (name : String) :
    root.kindAt? (here ++ [name]) = (u.node? name).map kind := by
  rw [kindAt?, at?_concat h]

theorem kindAt?_of_node? (h : root.at? here = some (.dir es))
    (hname : (dir es).node? name = some u) :
    root.kindAt? (here ++ [name]) = some u.kind := by
  rw [kindAt?_concat h, hname]
  rfl

theorem kindAt?_of_free (h : root.at? here = some (.dir es)) (hname : (dir es).node? name = none) :
    root.kindAt? (here ++ [name]) = none := by
  rw [kindAt?_concat h, hname]
  rfl

theorem kind_ne_link (h : ∀ target, u ≠ .link target) (target : String) : u.kind ≠ .link target := by
  cases u with
  | link t => exact absurd rfl (h t)
  | file => nofun
  | dir => nofun

/-- Only directories have something below them. -/
theorem kindAt?_of_append_cons (h : root.kindAt? (here ++ name :: rest) = some k) :
    root.kindAt? here = some .directory := by
  obtain ⟨u, hu, -⟩ := kindAt?_eq_some.mp h
  rw [at?_append] at hu
  obtain ⟨v, hv, hname⟩ := Option.bind_eq_some_iff.mp hu
  refine kindAt?_eq_directory.mpr ?_
  cases v with
  | dir es => exact ⟨es, hv⟩
  | file => cases hname
  | link => cases hname

/-- What is under a name is an entry of a directory. -/
theorem exists_node?_of_kindAt? (h : root.kindAt? (here ++ [name]) = some k) :
    ∃ es v, root.at? here = some (.dir es) ∧ (dir es).node? name = some v ∧ v.kind = k := by
  obtain ⟨es, hes⟩ := kindAt?_eq_directory.mp (kindAt?_of_append_cons h)
  rw [kindAt?_concat hes] at h
  obtain ⟨v, hv, hk⟩ := Option.map_eq_some_iff.mp h
  exact ⟨es, v, hes, hv, hk⟩

/-! ## Ways -/

/-- Where names lead from the directory `here` if every link is followed, `links` of them at most :
to the node that is at `place`, or to a name that is free there. `links'` may still be followed. -/
inductive Leads (root : Tree) : Nat → List String → List String → Nat → List String → Prop where
  | done {links : Nat} {here : List String} (hhere : (root.kindAt? here).isSome) :
      Leads root links here [] links here
  | stay {links links' : Nat} {here rest place : List String} {name : String}
      (hname : name = ".") (hhere : root.kindAt? here = some .directory)
      (hrest : Leads root links here rest links' place) :
      Leads root links here (name :: rest) links' place
  | leave {links links' : Nat} {here rest place : List String} {name : String}
      (hname : name = "..") (hhere : root.kindAt? here = some .directory)
      (hrest : Leads root links here.dropLast rest links' place) :
      Leads root links here (name :: rest) links' place
  | enter {links links' : Nat} {here rest place : List String} {name : String} {k : Kind}
      (hname : IsEntryName name) (hkind : root.kindAt? (here ++ [name]) = some k)
      (hlink : ∀ target, k ≠ .link target)
      (hrest : Leads root links (here ++ [name]) rest links' place) :
      Leads root links here (name :: rest) links' place
  | follow {links links' : Nat} {here rest place : List String} {name target : String}
      (hname : IsEntryName name) (hkind : root.kindAt? (here ++ [name]) = some (.link target))
      (htarget : target ≠ "")
      (hrest : Leads root links (linkStart here target) (Path.components target ++ rest) links'
        place) : Leads root (links + 1) here (name :: rest) links' place
  | free {links : Nat} {here : List String} {name : String} (hname : IsEntryName name)
      (hhere : root.kindAt? here = some .directory)
      (hkind : root.kindAt? (here ++ [name]) = none) :
      Leads root links here [name] links (here ++ [name])

namespace Leads

variable (h : Leads root links here names links' place)
include h

/-- A way that goes on starts in a directory. -/
theorem kindAt?_of_ne_nil (hnames : names ≠ []) : root.kindAt? here = some .directory := by
  cases h with
  | done => exact absurd rfl hnames
  | stay _ hhere => exact hhere
  | leave _ hhere => exact hhere
  | enter _ hkind => exact kindAt?_of_append_cons hkind
  | follow _ hkind => exact kindAt?_of_append_cons hkind
  | free _ hhere => exact hhere

theorem isSome_kindAt? : (root.kindAt? here).isSome := by
  by_cases hnames : names = []
  · subst hnames
    cases h with
    | done hhere => exact hhere
  · rw [h.kindAt?_of_ne_nil hnames]
    rfl

/-- Names lead to one place. -/
theorem unique {links₂ : Nat} {place₂ : List String}
    (h₂ : Leads root links here names links₂ place₂) : links' = links₂ ∧ place = place₂ := by
  induction h with
  | done =>
    cases h₂ with
    | done => exact ⟨rfl, rfl⟩
  | stay hdot _ _ ih =>
    cases h₂ with
    | stay _ _ hrest => exact ih hrest
    | leave hup => exact absurd (hdot.symm.trans hup) (by decide)
    | enter hname => exact absurd hdot hname.1
    | follow hname => exact absurd hdot hname.1
    | free hname => exact absurd hdot hname.1
  | leave hup _ _ ih =>
    cases h₂ with
    | stay hdot => exact absurd (hdot.symm.trans hup) (by decide)
    | leave _ _ hrest => exact ih hrest
    | enter hname => exact absurd hup hname.2.1
    | follow hname => exact absurd hup hname.2.1
    | free hname => exact absurd hup hname.2.1
  | enter hname hkind hlink _ ih =>
    cases h₂ with
    | stay hdot => exact absurd hdot hname.1
    | leave hup => exact absurd hup hname.2.1
    | enter _ _ _ hrest => exact ih hrest
    | follow _ hkind₂ => exact absurd (Option.some.inj (hkind.symm.trans hkind₂)) (hlink _)
    | free _ _ hkind₂ => cases hkind.symm.trans hkind₂
  | follow hname hkind _ _ ih =>
    cases h₂ with
    | stay hdot => exact absurd hdot hname.1
    | leave hup => exact absurd hup hname.2.1
    | enter _ hkind₂ hlink => exact absurd (Option.some.inj (hkind₂.symm.trans hkind)) (hlink _)
    | follow _ hkind₂ _ hrest =>
      cases hkind.symm.trans hkind₂
      exact ih hrest
    | free _ _ hkind₂ => cases hkind.symm.trans hkind₂
  | free hname _ hkind =>
    cases h₂ with
    | stay hdot => exact absurd hdot hname.1
    | leave hup => exact absurd hup hname.2.1
    | enter _ hkind₂ => cases hkind.symm.trans hkind₂
    | follow _ hkind₂ => cases hkind.symm.trans hkind₂
    | free => exact ⟨rfl, rfl⟩

/-- From where some names lead, others go on. -/
theorem append {links₂ : Nat} {place₂ : List String}
    (h₂ : Leads root links' place ys links₂ place₂) :
    Leads root links here (names ++ ys) links₂ place₂ := by
  induction h with
  | done => exact h₂
  | stay hdot hhere _ ih => exact .stay hdot hhere (ih h₂)
  | leave hup hhere _ ih => exact .leave hup hhere (ih h₂)
  | enter hname hkind hlink _ ih => exact .enter hname hkind hlink (ih h₂)
  | follow hname hkind htarget _ ih =>
    exact .follow hname hkind htarget (List.append_assoc _ _ ys ▸ ih h₂)
  | free _ _ hkind =>
    have hsome := h₂.isSome_kindAt?
    rw [hkind] at hsome
    cases hsome

end Leads

/-- A way can be taken in two parts, the first of which ends in a directory. -/
theorem leads_append (hys : ys ≠ []) : Leads root links here (xs ++ ys) links' place ↔
    ∃ links₁ mid, Leads root links here xs links₁ mid ∧ root.kindAt? mid = some .directory ∧
      Leads root links₁ mid ys links' place := by
  refine ⟨fun h => ?_, fun ⟨_, _, h₁, _, h₂⟩ => h₁.append h₂⟩
  have hstart : ∀ {links here}, Leads root links here ys links' place →
      ∃ links₁ mid, Leads root links here [] links₁ mid ∧ root.kindAt? mid = some .directory ∧
        Leads root links₁ mid ys links' place := fun h =>
    ⟨_, _, .done h.isSome_kindAt?, h.kindAt?_of_ne_nil hys, h⟩
  generalize hnames : xs ++ ys = names at h
  induction h generalizing xs with
  | done => exact absurd (List.append_eq_nil_iff.mp hnames).2 hys
  | stay hdot hhere hrest ih =>
    rcases List.append_eq_cons_iff.mp hnames with ⟨rfl, rfl⟩ | ⟨xs', rfl, hrest'⟩
    · exact hstart (.stay hdot hhere hrest)
    · obtain ⟨links₁, mid, h₁, h₂⟩ := ih hstart hrest'.symm
      exact ⟨links₁, mid, .stay hdot hhere h₁, h₂⟩
  | leave hup hhere hrest ih =>
    rcases List.append_eq_cons_iff.mp hnames with ⟨rfl, rfl⟩ | ⟨xs', rfl, hrest'⟩
    · exact hstart (.leave hup hhere hrest)
    · obtain ⟨links₁, mid, h₁, h₂⟩ := ih hstart hrest'.symm
      exact ⟨links₁, mid, .leave hup hhere h₁, h₂⟩
  | enter hname hkind hlink hrest ih =>
    rcases List.append_eq_cons_iff.mp hnames with ⟨rfl, rfl⟩ | ⟨xs', rfl, hrest'⟩
    · exact hstart (.enter hname hkind hlink hrest)
    · obtain ⟨links₁, mid, h₁, h₂⟩ := ih hstart hrest'.symm
      exact ⟨links₁, mid, .enter hname hkind hlink h₁, h₂⟩
  | follow hname hkind htarget hrest ih =>
    rcases List.append_eq_cons_iff.mp hnames with ⟨rfl, rfl⟩ | ⟨xs', rfl, rfl⟩
    · exact hstart (.follow hname hkind htarget hrest)
    · obtain ⟨links₁, mid, h₁, h₂⟩ := ih hstart (List.append_assoc _ _ _)
      exact ⟨links₁, mid, .follow hname hkind htarget h₁, h₂⟩
  | free hname hhere hkind =>
    rcases List.append_eq_cons_iff.mp hnames with ⟨rfl, rfl⟩ | ⟨xs', rfl, hrest'⟩
    · exact hstart (.free hname hhere hkind)
    · exact absurd (List.append_eq_nil_iff.mp hrest'.symm).2 hys

/-- Dots among the names change nothing. -/
theorem Leads.filter (h : Leads root links here names links' place) :
    Leads root links here (names.filter (· ≠ ".")) links' place := by
  -- the target of a link is put in front of the rest and keeps its own dots
  have hbehind : ∀ xs ys, names = xs ++ ys →
      Leads root links here (xs ++ ys.filter (· ≠ ".")) links' place := by
    have hkeep : ∀ {name : String} {rest : List String}, IsEntryName name →
        (name :: rest).filter (· ≠ ".") = name :: rest.filter (· ≠ ".") := fun hname =>
      List.filter_cons_of_pos (by simpa using hname.1)
    induction h with
    | done hhere =>
      intro xs ys hnames
      obtain ⟨rfl, rfl⟩ := List.append_eq_nil_iff.mp hnames.symm
      exact .done hhere
    | stay hdot hhere _ ih =>
      intro xs ys hnames
      rcases List.cons_eq_append_iff.mp hnames with ⟨rfl, rfl⟩ | ⟨xs', rfl, hrest⟩
      · rw [List.filter_cons_of_neg (by simpa using hdot)]
        exact ih [] _ rfl
      · exact .stay hdot hhere (ih xs' ys hrest)
    | leave hup hhere _ ih =>
      intro xs ys hnames
      rcases List.cons_eq_append_iff.mp hnames with ⟨rfl, rfl⟩ | ⟨xs', rfl, hrest⟩
      · rw [List.filter_cons_of_pos (by simp [hup])]
        exact .leave hup hhere (ih [] _ rfl)
      · exact .leave hup hhere (ih xs' ys hrest)
    | enter hname hkind hlink _ ih =>
      intro xs ys hnames
      rcases List.cons_eq_append_iff.mp hnames with ⟨rfl, rfl⟩ | ⟨xs', rfl, hrest⟩
      · rw [hkeep hname]
        exact .enter hname hkind hlink (ih [] _ rfl)
      · exact .enter hname hkind hlink (ih xs' ys hrest)
    | follow hname hkind htarget _ ih =>
      intro xs ys hnames
      rcases List.cons_eq_append_iff.mp hnames with ⟨rfl, rfl⟩ | ⟨xs', rfl, rfl⟩
      · rw [hkeep hname]
        exact .follow hname hkind htarget (ih _ _ rfl)
      · exact .follow hname hkind htarget
          (List.append_assoc _ xs' _ ▸ ih _ ys (List.append_assoc _ xs' ys).symm)
    | free hname hhere hkind =>
      intro xs ys hnames
      rcases List.cons_eq_append_iff.mp hnames with ⟨rfl, rfl⟩ | ⟨xs', rfl, hrest⟩
      · rw [hkeep hname]
        exact .free hname hhere hkind
      · obtain ⟨rfl, rfl⟩ := List.append_eq_nil_iff.mp hrest.symm
        exact .free hname hhere hkind
  exact hbehind [] names rfl

/-- Names that pass no link lead where they say. -/
theorem Leads.eq_foldNames (h : Leads root links here names links' place) (hdot : "." ∉ names)
    (hlink : ∀ xs target, xs <+: names → root.kindAt? (foldNames here xs) ≠ some (.link target)) :
    place = foldNames here names := by
  induction h with
  | done => rfl
  | stay hname => exact absurd (hname ▸ List.mem_cons_self) hdot
  | leave hup _ _ ih =>
    rw [foldNames, if_pos hup]
    refine ih (fun hmem => hdot (List.mem_cons_of_mem _ hmem)) fun xs target hxs => ?_
    have := hlink (_ :: xs) target (List.cons_prefix_cons.mpr ⟨rfl, hxs⟩)
    rwa [foldNames, if_pos hup] at this
  | enter hname _ _ _ ih =>
    rw [foldNames, if_neg hname.2.1]
    refine ih (fun hmem => hdot (List.mem_cons_of_mem _ hmem)) fun xs target hxs => ?_
    have := hlink (_ :: xs) target (List.cons_prefix_cons.mpr ⟨rfl, hxs⟩)
    rwa [foldNames, if_neg hname.2.1] at this
  | @follow _ _ _ _ _ name target hname hkind =>
    have := hlink [name] target (List.cons_prefix_cons.mpr ⟨rfl, List.nil_prefix⟩)
    rw [foldNames, if_neg hname.2.1] at this
    exact absurd hkind this
  | free hname => exact (if_neg hname.2.1).symm

/-- Names of directories lead into them. -/
theorem leads_of_kindAt? (hnames : ∀ name ∈ names, IsEntryName name)
    (h : root.kindAt? (here ++ names) = some .directory) :
    Leads root links here names links (here ++ names) := by
  induction names generalizing here with
  | nil =>
    rw [List.append_nil] at h ⊢
    exact .done (by simp [h])
  | cons name rest ih =>
    rw [List.append_cons] at h ⊢
    have hfirst : root.kindAt? (here ++ [name]) = some .directory := by
      cases rest with
      | nil => simpa using h
      | cons => exact kindAt?_of_append_cons h
    exact .enter (hnames _ List.mem_cons_self) hfirst nofun
      (ih (fun n hn => hnames n (List.mem_cons_of_mem _ hn)) h)

/-! ## What the system does -/

/-- What a place says about the tree at the names it is for. -/
inductive Place.IsAt (root : Tree) (names : List String) : Place → Prop where
  | present {node : Tree} (h : root.at? names = some node) : IsAt root names (.present names node)
  | absent {parent : List String} {name : String} {es : List (String × Tree)}
      (h : root.at? parent = some (.dir es)) (hfree : (dir es).node? name = none)
      (hnames : names = parent ++ [name]) : IsAt root names (.absent parent name)

/-- How far links can be followed does not matter until one is. -/
theorem exists_walk_eq (root : Tree) (last : Bool) (links : Nat) :
    ∃ follow, root.walk last links = root.walkNames last follow := by
  cases links <;> exact ⟨_, rfl⟩

section Walking

variable {follow : List String → String → List String → Except FileFault Place} {p : Place}

theorem walkNames_eq_ok
    (hfollow : ∀ {here name target rest}, IsEntryName name →
      root.kindAt? (here ++ [name]) = some (.link target) → follow here target rest = .ok p →
      ∃ links' place, root.Leads links here (name :: rest) links' place ∧ p.IsAt root place)
    (h : root.walkNames true follow here names = .ok p) :
    ∃ links' place, root.Leads links here names links' place ∧ p.IsAt root place := by
  generalize hlast : true = last at h
  fun_induction walkNames root last follow here names with
  | case1 here node hhere =>
    cases h
    exact ⟨links, here, .done (by simp [kindAt?, hhere]), .present hhere⟩
  | case2 => cases h
  | case3 here rest es hhere ih =>
    obtain ⟨links', place, hway, hp⟩ := ih h
    exact ⟨links', place, .stay rfl (kindAt?_eq_directory.mpr ⟨es, hhere⟩) hway, hp⟩
  | case4 here rest es hhere hdot ih =>
    obtain ⟨links', place, hway, hp⟩ := ih h
    exact ⟨links', place, .leave rfl (kindAt?_eq_directory.mpr ⟨es, hhere⟩) hway, hp⟩
  | case5 => cases h
  | case6 here name rest es hhere hdot hup hlong hfree hrest =>
    cases h
    obtain rfl : rest = [] := List.isEmpty_iff.mp hrest
    exact ⟨links, here ++ [name], .free ⟨hdot, hup, Nat.le_of_not_lt hlong⟩
      (kindAt?_eq_directory.mpr ⟨es, hhere⟩) (kindAt?_of_free hhere hfree), .absent hhere hfree rfl⟩
  | case7 => cases h
  | case8 here name rest es hhere hdot hup hlong target hlink hstop =>
    subst hlast
    simp at hstop
  | case9 here name rest es hhere hdot hup hlong target hlink hstop =>
    exact hfollow ⟨hdot, hup, Nat.le_of_not_lt hlong⟩ (kindAt?_of_node? hhere hlink) h
  | case10 here name rest es hhere hdot hup hlong node hnolink hnode ih =>
    obtain ⟨links', place, hway, hp⟩ := ih h
    exact ⟨links', place, .enter ⟨hdot, hup, Nat.le_of_not_lt hlong⟩ (kindAt?_of_node? hhere hnode)
      (kind_ne_link hnolink) hway, hp⟩
  | case11 => cases h
  | case12 => cases h

/-- The system goes along a way. -/
theorem walk_eq_ok (h : root.walk true links here names = .ok p) :
    ∃ links' place, root.Leads links here names links' place ∧ p.IsAt root place := by
  induction links generalizing here names with
  | zero => exact walkNames_eq_ok (fun _ _ h => by cases h) h
  | succ links ih =>
    refine walkNames_eq_ok (fun hname hkind h => ?_) h
    split at h
    · cases h
    · next htarget =>
      obtain ⟨links', place, hway, hp⟩ := ih h
      exact ⟨links', place, .follow hname hkind (by simpa using htarget) hway, hp⟩

/-- A way to a node is one the system goes. -/
theorem Leads.walk_eq (h : Leads root links here names links' place)
    (hplace : root.at? place = some u) :
    root.walk true links here names = .ok (.present place u) := by
  induction h with
  | @done links =>
    obtain ⟨follow, hwalk⟩ := exists_walk_eq root true links
    rw [hwalk, walkNames, hplace]
  | @stay links _ _ _ _ _ hdot hhere _ ih =>
    obtain ⟨follow, hwalk⟩ := exists_walk_eq root true links
    obtain ⟨es, hes⟩ := kindAt?_eq_directory.mp hhere
    rw [hwalk] at ih ⊢
    rw [walkNames, hes]
    dsimp only
    rw [if_pos hdot]
    exact ih hplace
  | @leave links _ _ _ _ _ hup hhere _ ih =>
    obtain ⟨follow, hwalk⟩ := exists_walk_eq root true links
    obtain ⟨es, hes⟩ := kindAt?_eq_directory.mp hhere
    rw [hwalk] at ih ⊢
    rw [walkNames, hes]
    dsimp only
    rw [if_neg (by simp [hup]), if_pos hup]
    exact ih hplace
  | @enter links _ _ _ _ _ _ hname hkind hlink _ ih =>
    obtain ⟨follow, hwalk⟩ := exists_walk_eq root true links
    obtain ⟨es, v, hes, hv, hk⟩ := exists_node?_of_kindAt? hkind
    rw [hwalk] at ih ⊢
    rw [walkNames, hes]
    dsimp only
    rw [if_neg hname.1, if_neg hname.2.1, if_neg (Nat.not_lt.mpr hname.2.2), hv]
    cases v with
    | link target => exact absurd hk.symm (hlink target)
    | file => exact ih hplace
    | dir => exact ih hplace
  | follow hname hkind htarget _ ih =>
    obtain ⟨es, v, hes, hv, hk⟩ := exists_node?_of_kindAt? hkind
    cases v with
    | dir => cases hk
    | file => cases hk
    | link target =>
      cases hk
      rw [walk, walkNames, hes]
      dsimp only
      rw [if_neg hname.1, if_neg hname.2.1, if_neg (Nat.not_lt.mpr hname.2.2), hv]
      simpa [htarget] using ih hplace
  | free _ _ hkind => cases (kindAt?_eq_none.mp hkind).symm.trans hplace

theorem walkNames_eq_absent
    (hfollow : ∀ {here link target rest}, IsEntryName link →
      root.kindAt? (here ++ [link]) = some (.link target) → rest ≠ [] →
      follow here target rest = .ok (.absent parent name) →
      ∃ xs links', rest = xs ++ [name] ∧ IsEntryName name ∧
        Leads root links here (link :: xs) links' parent ∧ root.kindAt? parent = some .directory ∧
        root.kindAt? (parent ++ [name]) = none)
    (h : root.walkNames false follow here names = .ok (.absent parent name)) :
    ∃ xs links', names = xs ++ [name] ∧ IsEntryName name ∧
      Leads root links here xs links' parent ∧ root.kindAt? parent = some .directory ∧
      root.kindAt? (parent ++ [name]) = none := by
  generalize hlast : false = last at h
  fun_induction walkNames root last follow here names with
  | case1 => cases h
  | case2 => cases h
  | case3 here rest es hhere ih =>
    obtain ⟨xs, links', rfl, hname, hway, hfree⟩ := ih h
    exact ⟨_ :: xs, links', rfl, hname, .stay rfl (kindAt?_eq_directory.mpr ⟨es, hhere⟩) hway, hfree⟩
  | case4 here rest es hhere hdot ih =>
    obtain ⟨xs, links', rfl, hname, hway, hfree⟩ := ih h
    exact ⟨_ :: xs, links', rfl, hname, .leave rfl (kindAt?_eq_directory.mpr ⟨es, hhere⟩) hway,
      hfree⟩
  | case5 => cases h
  | case6 here n rest es hhere hdot hup hlong hfree hrest =>
    cases h
    obtain rfl : rest = [] := List.isEmpty_iff.mp hrest
    have hkind : root.kindAt? parent = some .directory := kindAt?_eq_directory.mpr ⟨es, hhere⟩
    exact ⟨[], links, rfl, ⟨hdot, hup, Nat.le_of_not_lt hlong⟩, .done (by simp [hkind]), hkind,
      kindAt?_of_free hhere hfree⟩
  | case7 => cases h
  | case8 => cases h
  | case9 here n rest es hhere hdot hup hlong target hlink hstop =>
    have hrest : rest ≠ [] := fun hrest => by
      subst hlast
      simp [hrest] at hstop
    obtain ⟨xs, links', rfl, hname, hway, hfree⟩ :=
      hfollow ⟨hdot, hup, Nat.le_of_not_lt hlong⟩ (kindAt?_of_node? hhere hlink) hrest h
    exact ⟨n :: xs, links', rfl, hname, hway, hfree⟩
  | case10 here n rest es hhere hdot hup hlong node hnolink hnode ih =>
    obtain ⟨xs, links', rfl, hname, hway, hfree⟩ := ih h
    exact ⟨n :: xs, links', rfl, hname, .enter ⟨hdot, hup, Nat.le_of_not_lt hlong⟩
      (kindAt?_of_node? hhere hnode) (kind_ne_link hnolink) hway, hfree⟩
  | case11 => cases h
  | case12 => cases h

/-- If a link at the end is not followed, a name that is free is the last of the names, and the
others lead to its directory. -/
theorem walk_eq_absent (h : root.walk false links here names = .ok (.absent parent name)) :
    ∃ xs links', names = xs ++ [name] ∧ IsEntryName name ∧
      Leads root links here xs links' parent ∧ root.kindAt? parent = some .directory ∧
      root.kindAt? (parent ++ [name]) = none := by
  induction links generalizing here names with
  | zero => exact walkNames_eq_absent (fun _ _ _ h => by cases h) h
  | succ links ih =>
    refine walkNames_eq_absent (fun {here link target rest} hlink hkind hrest h => ?_) h
    split at h
    · cases h
    · next htarget =>
      obtain ⟨xs, links', hnames, hname, hway, hfree⟩ := ih h
      -- something is behind the link, so the last name is not from its target
      obtain ⟨ys, y, rfl⟩ := (List.eq_nil_or_concat rest).resolve_left hrest
      rw [List.concat_eq_append, ← List.append_assoc] at hnames
      obtain ⟨rfl, hlast⟩ := List.append_inj' hnames rfl
      rw [List.concat_eq_append, hlast]
      exact ⟨ys, links', rfl, hname, .follow hlink hkind (by simpa using htarget) hway, hfree⟩

end Walking

/-! ## From the root -/

/-- Names lead from the root to a place, where a node is or a name is free. -/
def Reaches (root : Tree) (names place : List String) : Prop :=
  ∃ links, Leads root maxLinks [] names links place

/-- Names lead from the root to a node. -/
def Finds (root : Tree) (names place : List String) : Prop :=
  root.Reaches names place ∧ (root.kindAt? place).isSome

theorem Reaches.unique {place₂ : List String} (h : root.Reaches names place)
    (h₂ : root.Reaches names place₂) : place = place₂ := by
  obtain ⟨links, hway⟩ := h
  obtain ⟨links₂, hway₂⟩ := h₂
  exact (hway.unique hway₂).2

/-- On the way to a place there are directories. -/
theorem Reaches.of_append_cons (h : root.Reaches (xs ++ name :: rest) place) :
    ∃ mid, root.Finds xs mid ∧ root.kindAt? mid = some .directory := by
  obtain ⟨links, hway⟩ := h
  obtain ⟨links₁, mid, hmid, hdirectory, -⟩ := (leads_append (List.cons_ne_nil _ _)).mp hway
  exact ⟨mid, ⟨⟨links₁, hmid⟩, by simp [hdirectory]⟩, hdirectory⟩

theorem Finds.of_prefix (h : root.Finds names place) (hxs : xs <+: names) :
    ∃ mid, root.Finds xs mid := by
  obtain ⟨ys, rfl⟩ := hxs
  cases ys with
  | nil => exact ⟨place, List.append_nil xs ▸ h⟩
  | cons y ys =>
    obtain ⟨mid, hmid, -⟩ := h.1.of_append_cons
    exact ⟨mid, hmid⟩

/-- One more name, if there is a directory to look it up in. -/
theorem Finds.step (h : root.Finds names parent)
    (hstep : ∀ links, Leads root links parent [name] links place) :
    root.Reaches (names ++ [name]) place := by
  obtain ⟨⟨links, hway⟩, -⟩ := h
  exact ⟨links, hway.append (hstep links)⟩

/-! ## Paths -/

/-- Whether a list of names is the place of a directory, under names that can be asked for. -/
def IsDirectoryPlace (root : Tree) (place : List String) : Prop :=
  (∀ name ∈ place, IsEntryName name) ∧ root.kindAt? place = some .directory

/-- A path leads to a place from the working directory `cwd`. -/
def PathLeads (root : Tree) (cwd : List String) (path : String) (place : List String) : Prop :=
  Char.ofNat 0 ∉ path.toList ∧ ∃ links,
    Leads root maxLinks (if Path.isAbsolute path then [] else cwd) (namesOf path) links place

section Paths

variable {cwd : List String} {path : String} {last : Bool} {p : Place}

theorem locate_eq_ok (h : root.locate cwd last path = .ok p) : Char.ofNat 0 ∉ path.toList ∧
    root.walk last maxLinks (if Path.isAbsolute path then [] else cwd) (Path.components path) =
      .ok p := by
  unfold locate at h
  split at h
  · cases h
  · split at h
    · cases h
    · next hnul => exact ⟨by simpa using hnul, h⟩

/-- The system takes a path where its names lead. -/
theorem pathLeads_of_locate (h : root.locate cwd true path = .ok p) :
    ∃ place, root.PathLeads cwd path place ∧ p.IsAt root place := by
  obtain ⟨hnul, hwalk⟩ := locate_eq_ok h
  obtain ⟨links', place, hway, hp⟩ := walk_eq_ok hwalk
  exact ⟨place, ⟨hnul, links', hway.filter⟩, hp⟩

/-- A path whose last name is free leads to its directory without that name. -/
theorem leads_of_locate_absent (h : root.locate cwd false path = .ok (.absent parent name)) :
    ∃ xs links', namesOf path = xs ++ [name] ∧ IsEntryName name ∧
      Leads root maxLinks (if Path.isAbsolute path then [] else cwd) xs links' parent ∧
      root.kindAt? parent = some .directory ∧ root.kindAt? (parent ++ [name]) = none := by
  obtain ⟨-, hwalk⟩ := locate_eq_ok h
  obtain ⟨xs, links', hnames, hname, hway, hfree⟩ := walk_eq_absent hwalk
  refine ⟨xs.filter (· ≠ "."), links', ?_, hname, hway.filter, hfree⟩
  rw [namesOf, hnames, List.filter_append, List.filter_cons_of_pos (by simpa using hname.1)]
  rfl

theorem IsDirectoryPlace.finds (h : root.IsDirectoryPlace place) : root.Finds place place :=
  ⟨⟨maxLinks, leads_of_kindAt? h.1 h.2⟩, by simp [h.2]⟩

/-- From a working directory that is in the tree, names can be followed from the root. -/
theorem Leads.reaches (hcwd : root.IsDirectoryPlace cwd)
    (h : Leads root maxLinks (if Path.isAbsolute path then [] else cwd) xs links' place) :
    root.Reaches ((if Path.isAbsolute path then [] else cwd) ++ xs) place := by
  have hstart : Leads root maxLinks [] cwd maxLinks cwd := leads_of_kindAt? hcwd.1 hcwd.2
  split
  · next habs =>
    rw [if_pos habs] at h
    exact ⟨links', h⟩
  · next habs =>
    rw [if_neg habs] at h
    exact ⟨links', hstart.append h⟩

theorem PathLeads.reaches (hcwd : root.IsDirectoryPlace cwd) (h : root.PathLeads cwd path place) :
    root.Reaches (namesFrom cwd path) place := by
  obtain ⟨-, links, hway⟩ := h
  exact hway.reaches hcwd

end Paths

end NetworkCompiler.Tree
