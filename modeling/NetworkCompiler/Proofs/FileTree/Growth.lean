import NetworkCompiler.Proofs.FileTree.Leaves

/-!
# Trees that grow

Writing files and making directories only adds to a tree (`Tree.Grows`) : what was there keeps its
place and its kind, and no link is new. So names lead where they led before (`Leads.grows`), and if
no directory was made they lead nowhere else (`Leads.shrinks`). Directories are made for a path that
leads nowhere only, and not if it stops at a link (`makeDirectoriesWithin_of_finds`,
`makeDirectoriesWithin_of_stops`).
-/

namespace NetworkCompiler.Tree

open CommandLine (namesFrom namesOf)

/-- What was there is there with its kind, and every link was there. -/
structure Grows (old new : Tree) : Prop where
  kept : ∀ {names : List String} {k : Kind}, old.kindAt? names = some k → new.kindAt? names = some k
  link : ∀ {names : List String} {target : String}, new.kindAt? names = some (.link target) →
    old.kindAt? names = some (.link target)

/-- Every directory was there. -/
def HasDirectoriesOf (new old : Tree) : Prop :=
  ∀ names, new.kindAt? names = some .directory → old.kindAt? names = some .directory

variable {root root' old new t : Tree} {name path : String}
  {cwd here names parent place xs : List String} {links links' : Nat} {content : ByteArray}
  {executable : Bool} {k : Kind}

/-! ## Growing -/

namespace Grows

theorem refl (t : Tree) : Grows t t :=
  ⟨id, id⟩

theorem trans (h : Grows old t) (h' : Grows t new) : Grows old new :=
  ⟨fun hk => h'.kept (h.kept hk), fun hk => h.link (h'.link hk)⟩

theorem isSome_kindAt? (h : Grows old new) (hplace : (old.kindAt? place).isSome) :
    (new.kindAt? place).isSome := by
  obtain ⟨k, hk⟩ := Option.isSome_iff_exists.mp hplace
  simp [h.kept hk]

/-- What is not a link is not one in a tree that has grown. -/
theorem ne_link (h : Grows old new) (hold : ∀ target, old.kindAt? names ≠ some (.link target))
    (hk : new.kindAt? names = some k) (target : String) : k ≠ .link target := by
  rintro rfl
  exact hold target (h.link hk)

/-- Of what there is in both trees the kind is the same. -/
theorem kindAt?_eq (h : Grows old new) (hold : (old.kindAt? place).isSome)
    (hk : new.kindAt? place = some k) : old.kindAt? place = some k := by
  obtain ⟨k', hk'⟩ := Option.isSome_iff_exists.mp hold
  rw [hk', ← hk, h.kept hk']

theorem isDirectoryPlace (h : Grows old new) (hplace : old.IsDirectoryPlace place) :
    new.IsDirectoryPlace place :=
  ⟨hplace.1, h.kept hplace.2⟩

end Grows

theorem grows_put_file (h : root.IsFilePlace place) :
    Grows root (root.put place (.file content executable)) := by
  refine ⟨fun {names k} hk => ?_, fun {names target} hlink => ?_⟩
  · rw [kindAt?_put_file h]
    split
    · next heq =>
      subst heq
      obtain ⟨_, _, _, _, hfree⟩ | hfile := h
      · cases hfree.symm.trans hk
      · exact hfile.symm.trans hk
    · exact hk
  · rw [kindAt?_put_file h] at hlink
    split at hlink
    · cases hlink
    · exact hlink

theorem hasDirectoriesOf_put_file (h : root.IsFilePlace place) :
    HasDirectoriesOf (root.put place (.file content executable)) root := by
  intro names hdirectory
  rw [kindAt?_put_file h] at hdirectory
  split at hdirectory
  · cases hdirectory
  · exact hdirectory

theorem grows_put_dir (hparent : root.kindAt? parent = some .directory)
    (hfree : root.kindAt? (parent ++ [name]) = none) :
    Grows root (root.put (parent ++ [name]) (.dir [])) := by
  refine ⟨fun {names k} hk => ?_, fun {names target} hlink => ?_⟩
  · rw [kindAt?_put_dir hparent hfree, if_neg]
    · exact hk
    · rintro rfl
      cases hfree.symm.trans hk
  · rw [kindAt?_put_dir hparent hfree] at hlink
    split at hlink
    · cases hlink
    · exact hlink

theorem grows_makeDirectories (h : root.makeDirectories cwd path = .ok root') :
    Grows root root' := by
  refine makeDirectories_induct Grows.refl Grows.trans (fun hmade => ?_) h
  obtain ⟨_, _, _, _, _, _, _, hparent, hfree, rfl⟩ := makeDirectory_eq_ok hmade
  exact grows_put_dir hparent hfree

/-! ## Ways in trees that grow -/

/-- Names lead where they led before. -/
theorem Leads.grows (h : Leads old links here names links' place) (hgrows : Grows old new) :
    Leads new links here names links' place := by
  induction h with
  | done hhere => exact .done (hgrows.isSome_kindAt? hhere)
  | stay hdot hhere _ ih => exact .stay hdot (hgrows.kept hhere) ih
  | leave hup hhere _ ih => exact .leave hup (hgrows.kept hhere) ih
  | enter hname hkind hlink _ ih => exact .enter hname (hgrows.kept hkind) hlink ih
  | follow hname hkind htarget _ ih => exact .follow hname (hgrows.kept hkind) htarget ih
  | @free _ here name hname hhere hkind =>
    cases hk : new.kindAt? (here ++ [name]) with
    | none => exact .free hname (hgrows.kept hhere) hk
    | some k =>
      refine .enter hname hk (hgrows.ne_link (fun target hlink => ?_) hk) (.done (by simp [hk]))
      cases hkind.symm.trans hlink

theorem Reaches.grows (h : old.Reaches names place) (hgrows : Grows old new) :
    new.Reaches names place := by
  obtain ⟨links, hway⟩ := h
  exact ⟨links, hway.grows hgrows⟩

theorem Finds.grows (h : old.Finds names place) (hgrows : Grows old new) : new.Finds names place :=
  ⟨h.1.grows hgrows, hgrows.isSome_kindAt? h.2⟩

theorem kindAt?_dropLast (h : root.kindAt? here = some .directory) :
    root.kindAt? here.dropLast = some .directory := by
  rcases List.eq_nil_or_concat here with rfl | ⟨parent, name, rfl⟩
  · exact h
  · rw [List.concat_eq_append] at h
    rw [List.concat_eq_append, List.dropLast_concat]
    exact kindAt?_of_append_cons h

/-- If no directory was made, names lead where they led before and nowhere else. -/
theorem Leads.shrinks (h : Leads new links here names links' place) (hgrows : Grows old new)
    (hdirectories : HasDirectoriesOf new old) (hhere : (old.kindAt? here).isSome) :
    Leads old links here names links' place := by
  have hsome : ∀ {names}, new.kindAt? names = some .directory → (old.kindAt? names).isSome :=
    fun h => by simp [hdirectories _ h]
  induction h with
  | done => exact .done hhere
  | stay hdot hdir _ ih => exact .stay hdot (hdirectories _ hdir) (ih hhere)
  | leave hup hdir _ ih =>
    exact .leave hup (hdirectories _ hdir) (ih (hsome (kindAt?_dropLast hdir)))
  | @enter _ _ here rest _ name k hname hkind hlink hrest ih =>
    by_cases hold : (old.kindAt? (here ++ [name])).isSome
    · exact .enter hname (hgrows.kindAt?_eq hold hkind) hlink (ih hold)
    · -- what is new is a file, and nothing is behind it
      rw [Option.not_isSome_iff_eq_none] at hold
      have hlast : rest = [] := by
        by_contra hne
        cases hold.symm.trans (hdirectories _ (hrest.kindAt?_of_ne_nil hne))
      subst hlast
      cases hrest
      exact .free hname (hdirectories _ (kindAt?_of_append_cons hkind)) hold
  | @follow _ _ here _ _ _ target hname hkind htarget _ ih =>
    refine .follow hname (hgrows.link hkind) htarget (ih ?_)
    unfold linkStart
    split
    · rfl
    · exact hhere
  | @free _ here name hname hdir hkind =>
    refine .free hname (hdirectories _ hdir) ?_
    cases hold : old.kindAt? (here ++ [name]) with
    | none => rfl
    | some k => cases hkind.symm.trans (hgrows.kept hold)

/-- A path leads to what is now where it led before. -/
theorem locate_grows {u v : Tree} (hgrows : Grows old new)
    (h : old.locate cwd true path = .ok (.present place u)) (hat : new.at? place = some v) :
    new.locate cwd true path = .ok (.present place v) := by
  unfold locate at h ⊢
  split at h
  · cases h
  next hempty =>
  split at h
  · cases h
  next hnul =>
  obtain ⟨links, mid, hway, hplace⟩ := walk_eq_ok h
  obtain ⟨-⟩ | _ := hplace
  rw [if_neg hempty, if_neg hnul]
  exact (hway.grows hgrows).walk_eq hat

/-- A file is read as before if it was kept. -/
theorem readBytes_grows (hgrows : Grows old new)
    (h : old.locate cwd true path = .ok (.present place (.file content executable)))
    (hkept : new.leaf? place = some (.file content executable)) :
    new.readBytes cwd path = .ok content := by
  rw [readBytes, locate_grows hgrows h (at?_of_leaf? hkept)]

theorem readBytes_eq_ok (h : root.readBytes cwd path = .ok content) : ∃ place executable,
    root.locate cwd true path = .ok (.present place (.file content executable)) ∧
      root.leaf? place = some (.file content executable) := by
  unfold readBytes at h
  split at h
  · cases h
  · cases h
  · next place old executable hlocate =>
    cases h
    obtain ⟨_, -, hplace⟩ := pathLeads_of_locate hlocate
    obtain ⟨hat⟩ | _ := hplace
    refine ⟨place, executable, hlocate, ?_⟩
    rw [leaf?, hat]
    rfl
  · cases h
  · cases h

/-! ## Directories that are not made -/

/-- Names that stop at a link to nowhere. -/
def Stops (root : Tree) (names : List String) : Prop :=
  ∃ xs name place target, xs ++ [name] <+: names ∧ root.Finds xs place ∧
    root.kindAt? (place ++ [name]) = some (.link target) ∧ ∀ mid, ¬root.Finds (xs ++ [name]) mid

theorem Stops.not_finds (h : root.Stops names) : ¬root.Finds names place := by
  obtain ⟨xs, name, -, -, hprefix, -, -, hnowhere⟩ := h
  intro hfinds
  obtain ⟨mid, hmid⟩ := hfinds.of_prefix hprefix
  exact hnowhere mid hmid

/-- If names stop at a link, then the first of them stop there too, or lead somewhere. -/
theorem Stops.of_prefix (h : root.Stops names) (hxs : xs <+: names) :
    root.Stops xs ∨ ∃ place, root.Finds xs place := by
  obtain ⟨ys, name, place, target, hprefix, hplace, hlink⟩ := h
  rcases List.prefix_or_prefix_of_prefix hxs hprefix with hfront | hbehind
  · rcases List.prefix_concat_iff.mp hfront with heq | hfront
    · exact .inl ⟨ys, name, place, target, heq ▸ List.prefix_rfl, hplace, hlink⟩
    · exact .inr (hplace.of_prefix hfront)
  · exact .inl ⟨ys, name, place, target, hbehind, hplace, hlink⟩

section Missing

variable (hcwd : root.IsDirectoryPlace cwd)
include hcwd

/-- A directory is made under the last name of its path, from the root. -/
theorem exists_finds_of_makeDirectory (h : root.makeDirectory cwd path = .ok root') :
    ∃ xs name parent, namesFrom cwd path = xs ++ [name] ∧ root.Finds xs parent ∧
      root.kindAt? (parent ++ [name]) = none ∧
      root.Reaches (xs ++ [name]) (parent ++ [name]) := by
  obtain ⟨xs, name, links, parent, hnames, hname, hway, hparent, hfree, -⟩ := makeDirectory_eq_ok h
  have hfinds : root.Finds _ parent := ⟨hway.reaches hcwd, by simp [hparent]⟩
  exact ⟨_, name, parent, by rw [namesFrom, hnames, List.append_assoc], hfinds, hfree,
    hfinds.step fun _ => .free hname hparent hfree⟩

theorem makeDirectory_of_finds (h : root.Finds (namesFrom cwd path) place) :
    root.makeDirectory cwd path ≠ .ok root' := by
  intro hmade
  obtain ⟨xs, name, parent, hnames, -, hfree, hreaches⟩ := exists_finds_of_makeDirectory hcwd hmade
  rw [hnames] at h
  obtain rfl := h.1.unique hreaches
  have hsome := h.2
  rw [hfree] at hsome
  cases hsome

theorem makeDirectory_of_stops (h : root.Stops (namesFrom cwd path)) :
    root.makeDirectory cwd path ≠ .ok root' := by
  intro hmade
  obtain ⟨ys, link, place, target, hprefix, hplace, hlink, hnowhere⟩ := h
  obtain ⟨xs, name, parent, hnames, hparent, hfree, -⟩ := exists_finds_of_makeDirectory hcwd hmade
  rw [hnames, List.prefix_concat_iff] at hprefix
  rcases hprefix with heq | hprefix
  · obtain ⟨rfl, hname⟩ := List.append_inj' heq rfl
    obtain rfl := hplace.1.unique hparent.1
    rw [hname] at hlink
    cases hfree.symm.trans hlink
  · obtain ⟨mid, hmid⟩ := hparent.of_prefix hprefix
    exact hnowhere mid hmid

theorem finds_of_hasDirectory (h : root.hasDirectory cwd path = true) :
    ∃ place, root.Finds (namesFrom cwd path) place := by
  unfold hasDirectory at h
  split at h
  · next names es hlocate =>
    obtain ⟨place, hway, hp⟩ := pathLeads_of_locate hlocate
    obtain ⟨hat⟩ | _ := hp
    exact ⟨names, hway.reaches hcwd, by simp [kindAt?, hat]⟩
  · cases h

theorem hasDirectory_of_stops (h : root.Stops (namesFrom cwd path)) :
    root.hasDirectory cwd path ≠ true := by
  intro hdirectory
  obtain ⟨place, hfinds⟩ := finds_of_hasDirectory hcwd hdirectory
  exact h.not_finds hfinds

omit hcwd in
theorem isPrefix_namesFrom_parent? {parent : String} (h : Path.parent? path = some parent) :
    namesFrom cwd parent <+: namesFrom cwd path := by
  obtain ⟨habs, hnames⟩ := CommandLine.parent?_eq_some h
  rw [namesFrom, namesFrom, habs, hnames]
  exact (List.prefix_append_right_inj _).mpr (List.dropLast_prefix _)

/-- No directory is made for a path that leads somewhere. -/
theorem makeDirectoriesWithin_of_finds (fuel : Nat) (h : root.Finds (namesFrom cwd path) place)
    (hmade : makeDirectoriesWithin cwd fuel root path = .ok root') : root' = root := by
  induction fuel generalizing path place root' with
  | zero => exact absurd hmade (makeDirectory_of_finds hcwd h)
  | succ fuel ih =>
    rw [makeDirectoriesWithin] at hmade
    split at hmade
    · cases hmade
      rfl
    · split at hmade
      · next hone => exact absurd hone (makeDirectory_of_finds hcwd h)
      · split at hmade
        · cases hmade
        · next parent hparent =>
          obtain ⟨mid, hmid⟩ := h.of_prefix (isPrefix_namesFrom_parent? hparent)
          split at hmade
          · cases hmade
          · next above habove =>
            obtain rfl := ih hmid habove
            split at hmade
            · next hone => exact absurd hone (makeDirectory_of_finds hcwd h)
            · split at hmade <;> cases hmade
              rfl
      · split at hmade <;> cases hmade
        rfl

/-- No directories are made for a path that stops at a link. -/
theorem makeDirectoriesWithin_of_stops (fuel : Nat) (h : root.Stops (namesFrom cwd path)) :
    makeDirectoriesWithin cwd fuel root path ≠ .ok root' := by
  intro hmade
  induction fuel generalizing path root' with
  | zero => exact makeDirectory_of_stops hcwd h hmade
  | succ fuel ih =>
    rw [makeDirectoriesWithin] at hmade
    split at hmade
    · next hempty =>
      obtain rfl : path = "" := by simpa using hempty
      have hcwd' : namesFrom cwd "" = cwd := List.append_nil cwd
      exact h.not_finds (hcwd'.symm ▸ hcwd.finds)
    · split at hmade
      · next hone => exact makeDirectory_of_stops hcwd h hone
      · split at hmade
        · cases hmade
        · next parent hparent =>
          split at hmade
          · cases hmade
          · next above habove =>
            obtain rfl : above = root := by
              rcases h.of_prefix (isPrefix_namesFrom_parent? hparent) with hstops | ⟨mid, hmid⟩
              · exact absurd habove (ih hstops)
              · exact makeDirectoriesWithin_of_finds hcwd fuel hmid habove
            split at hmade
            · next hone => exact makeDirectory_of_stops hcwd h hone
            · rw [if_neg (hasDirectory_of_stops hcwd h)] at hmade
              cases hmade
      · rw [if_neg (hasDirectory_of_stops hcwd h)] at hmade
        cases hmade

end Missing

end NetworkCompiler.Tree
