import NetworkCompiler.Proofs.FileTree.Following

/-!
# Files in trees

What a tree has at a list of names, unless it is a directory (`Tree.leaf?`). Putting a file or an
empty directory in place changes what is there and nothing else (`map_at?_put`). So writing to a path
changes the file that the path leads to (`write_eq_ok`), making directories changes no file at all
(`leaf?_makeDirectories`), and in a tree without links a path leads to the names that it means
(`PathLeads.eq_placeOf`).
-/

namespace NetworkCompiler.Tree

open CommandLine (foldNames namesOf placeOf)

/-- What a list of names leads to, if it is no directory. -/
def leaf? (root : Tree) (names : List String) : Option Tree :=
  (root.at? names).bind fun t => if t.isDirectory then none else some t

/-- No name in the tree is a link. -/
def IsLinkFree (root : Tree) : Prop :=
  ∀ names target, root.leaf? names ≠ some (.link target)

variable {root root' t u : Tree} {name path : String} {cwd names parent place q : List String}
  {es : List (String × Tree)} {content : ByteArray} {executable : Bool}

/-! ## Nodes -/

theorem leaf?_cons (root : Tree) (name : String) (names : List String) :
    root.leaf? (name :: names) = (root.node? name).bind fun t => t.leaf? names := by
  rw [leaf?, at?]
  cases root.node? name <;> rfl

theorem at?_of_leaf? (h : root.leaf? names = some u) : root.at? names = some u := by
  obtain ⟨t, ht, hleaf⟩ := Option.bind_eq_some_iff.mp h
  split at hleaf
  · cases hleaf
  · rw [ht, hleaf]

theorem leaf?_eq_link {target : String} :
    root.leaf? names = some (.link target) ↔ root.kindAt? names = some (.link target) := by
  rw [kindAt?_eq_link, leaf?]
  cases root.at? names with
  | none => simp
  | some u => cases u <;> simp [isDirectory]

theorem eq_dir_of_node? (h : root.node? name = some u) : ∃ es, root = .dir es := by
  cases root with
  | dir es => exact ⟨es, rfl⟩
  | file => cases h
  | link => cases h

theorem at?_cons_of_not_isDirectory (h : t.isDirectory = false) : t.at? (name :: names) = none := by
  cases t with
  | dir => cases h
  | file => rfl
  | link => rfl

theorem node?_putEntry (n : String) :
    (dir (putEntry name t es)).node? n = if n = name then some t else (dir es).node? n := by
  induction es with
  | nil => by_cases hn : n = name <;> simp [node?, putEntry, hn, eq_comm]
  | cons e es ih =>
    obtain ⟨k, v⟩ := e
    simp only [node?] at ih ⊢
    rw [putEntry]
    split
    · next hk =>
      subst hk
      by_cases hn : n = k
      · rw [if_pos hn, List.find?_cons_of_pos (by simp [hn])]
        rfl
      · have hne : k ≠ n := Ne.symm hn
        rw [if_neg hn, List.find?_cons_of_neg (by simpa using hne),
          List.find?_cons_of_neg (by simpa using hne)]
    · next hk =>
      by_cases hn : k = n
      · have hne : n ≠ name := fun h => hk (hn.trans h)
        rw [if_neg hne, List.find?_cons_of_pos (by simpa using hn),
          List.find?_cons_of_pos (by simpa using hn)]
      · rw [List.find?_cons_of_neg (by simpa using hn), List.find?_cons_of_neg (by simpa using hn)]
        exact ih

theorem isLinkFree_file (content : ByteArray) (executable : Bool) :
    (file content executable).IsLinkFree := by
  intro names target h
  cases names with
  | nil => cases h
  | cons n ns => cases h

theorem isLinkFree_dir (h : ∀ e ∈ es, e.2.IsLinkFree) : (dir es).IsLinkFree := by
  intro names target hlink
  cases names with
  | nil => cases hlink
  | cons n ns =>
    rw [leaf?_cons] at hlink
    obtain ⟨u, hu, hlink⟩ := Option.bind_eq_some_iff.mp hlink
    obtain ⟨e, he, rfl⟩ := Option.map_eq_some_iff.mp hu
    exact h e (List.mem_of_find?_eq_some he) ns target hlink

/-! ## Putting a node in place -/

section Put

variable {α : Type} {f : Tree → α}

/-- A node without entries that is put into a directory, in the place of a file or of nothing,
changes what is there; of any other directory only the entries may change. -/
theorem map_at?_put (hf : ∀ es es', f (dir es) = f (dir es')) (h : root.at? parent = some (.dir es))
    (hold : ∀ u, (dir es).node? name = some u → u.isDirectory = false)
    (ht : ∀ n ns, t.at? (n :: ns) = none) :
    ((root.put (parent ++ [name]) t).at? q).map f =
      if q = parent ++ [name] then some (f t) else (root.at? q).map f := by
  induction parent generalizing root q with
  | nil =>
    obtain rfl : root = .dir es := Option.some.inj h
    rw [List.nil_append, put]
    cases q with
    | nil => exact congrArg some (hf _ _)
    | cons n ns =>
      rw [at?, node?_putEntry, at?]
      by_cases hn : n = name
      · subst hn
        rw [if_pos rfl, Option.bind_some, put]
        cases ns with
        | nil => rw [if_pos rfl]; rfl
        | cons k ks =>
          rw [ht, if_neg (by simp)]
          cases hu : (dir es).node? n with
          | none => rfl
          | some u => rw [Option.bind_some, at?_cons_of_not_isDirectory (hold u hu)]
      · rw [if_neg hn, if_neg (by simp [hn])]
  | cons p ps ih =>
    obtain ⟨u, hu, hps⟩ := Option.bind_eq_some_iff.mp h
    obtain ⟨es₀, rfl⟩ := eq_dir_of_node? hu
    have hput : (dir es₀).put (p :: ps ++ [name]) t =
        dir (putEntry p (u.put (ps ++ [name]) t) es₀) := by
      have hinner : (((es₀.find? fun e => e.1 = p).map (·.2)).getD (dir [])) = u := by
        rw [show (es₀.find? fun e => e.1 = p).map (·.2) = some u from hu]
        rfl
      rw [List.cons_append, put, hinner]
    rw [hput]
    cases q with
    | nil => exact congrArg some (hf _ _)
    | cons n ns =>
      rw [at?, node?_putEntry, at?]
      by_cases hn : n = p
      · subst hn
        rw [if_pos rfl, Option.bind_some, ih hps, hu, Option.bind_some]
        simp
      · rw [if_neg hn, if_neg (by simp [hn])]

/-- A node without entries that is put under a free name of a directory changes what is there. -/
theorem map_at?_put_free (hf : ∀ es es', f (dir es) = f (dir es'))
    (hparent : root.kindAt? parent = some .directory)
    (hfree : root.kindAt? (parent ++ [name]) = none) (ht : ∀ n ns, t.at? (n :: ns) = none) :
    ((root.put (parent ++ [name]) t).at? q).map f =
      if q = parent ++ [name] then some (f t) else (root.at? q).map f := by
  obtain ⟨es, hes⟩ := kindAt?_eq_directory.mp hparent
  refine map_at?_put hf hes (fun u hu => ?_) ht
  rw [kindAt?_of_node? hes hu] at hfree
  cases hfree

/-- A place for a file : one that is free in a directory, or that has a file. -/
def IsFilePlace (root : Tree) (place : List String) : Prop :=
  (∃ parent name, place = parent ++ [name] ∧ root.kindAt? parent = some .directory ∧
    root.kindAt? place = none) ∨ root.kindAt? place = some .file

/-- A file that is put in its place changes what is there. -/
theorem map_at?_put_file (hf : ∀ es es', f (dir es) = f (dir es')) (h : root.IsFilePlace place) :
    ((root.put place (.file content executable)).at? q).map f =
      if q = place then some (f (.file content executable)) else (root.at? q).map f := by
  obtain ⟨parent, name, rfl, hparent, hfree⟩ | hfile := h
  · exact map_at?_put_free hf hparent hfree fun _ _ => rfl
  · obtain ⟨old, x, hold⟩ := kindAt?_eq_file.mp hfile
    rcases List.eq_nil_or_concat place with rfl | ⟨parent, name, rfl⟩
    · obtain rfl : root = .file old x := Option.some.inj hold
      rw [put]
      cases q with
      | nil => rw [if_pos rfl]; rfl
      | cons n ns => rw [if_neg (by simp)]; rfl
    · rw [List.concat_eq_append] at hfile hold ⊢
      obtain ⟨es, hes⟩ := kindAt?_eq_directory.mp (kindAt?_of_append_cons hfile)
      refine map_at?_put hf hes (fun u hu => ?_) fun _ _ => rfl
      rw [at?_concat hes, hu] at hold
      cases hold
      rfl

theorem leaf?_eq_join (root : Tree) (names : List String) : root.leaf? names =
    ((root.at? names).map fun t => if t.isDirectory then none else some t).join := by
  rw [leaf?]
  cases root.at? names <;> rfl

theorem leaf?_put_file (h : root.IsFilePlace place) :
    (root.put place (.file content executable)).leaf? q =
      if q = place then some (.file content executable) else root.leaf? q := by
  rw [leaf?_eq_join, map_at?_put_file (fun _ _ => rfl) h, leaf?_eq_join]
  split <;> rfl

theorem kindAt?_put_file (h : root.IsFilePlace place) :
    (root.put place (.file content executable)).kindAt? q =
      if q = place then some .file else root.kindAt? q :=
  map_at?_put_file (fun _ _ => rfl) h

/-- A directory that is made changes no file. -/
theorem leaf?_put_dir (hparent : root.kindAt? parent = some .directory)
    (hfree : root.kindAt? (parent ++ [name]) = none) :
    (root.put (parent ++ [name]) (.dir [])).leaf? q = root.leaf? q := by
  rw [leaf?_eq_join, map_at?_put_free (fun _ _ => rfl) hparent hfree fun _ _ => rfl, leaf?_eq_join]
  split
  · next hq =>
    rw [hq, kindAt?_eq_none.mp hfree]
    rfl
  · rfl

theorem kindAt?_put_dir (hparent : root.kindAt? parent = some .directory)
    (hfree : root.kindAt? (parent ++ [name]) = none) :
    (root.put (parent ++ [name]) (.dir [])).kindAt? q =
      if q = parent ++ [name] then some .directory else root.kindAt? q :=
  map_at?_put_free (fun _ _ => rfl) hparent hfree fun _ _ => rfl

end Put

/-! ## Changing files -/

/-- A file is written to the place that its path leads to. -/
theorem write_eq_ok (h : root.write cwd path content = .ok root') :
    ∃ place executable, root.PathLeads cwd path place ∧ root.IsFilePlace place ∧
      root' = root.put place (.file content executable) := by
  unfold write at h
  split at h
  · cases h
  · next parent name hlocate =>
    cases h
    obtain ⟨place, hway, hplace⟩ := pathLeads_of_locate hlocate
    obtain _ | ⟨hparent, hfree, rfl⟩ := hplace
    exact ⟨_, false, hway, .inl ⟨parent, name, rfl, kindAt?_eq_directory.mpr ⟨_, hparent⟩,
      kindAt?_of_free hparent hfree⟩, rfl⟩
  · next names old executable hlocate =>
    cases h
    obtain ⟨place, hway, hplace⟩ := pathLeads_of_locate hlocate
    obtain ⟨hat⟩ | _ := hplace
    exact ⟨_, executable, hway, .inr (kindAt?_eq_file.mpr ⟨old, executable, hat⟩), rfl⟩
  · cases h
  · cases h

/-- What the path leads to is marked if it is a file, and nothing is changed else. -/
theorem markExecutable_eq_ok (h : root.markExecutable cwd path = .ok root') :
    ∃ place, root.PathLeads cwd path place ∧
      ((∃ content executable, root.at? place = some (.file content executable) ∧
          root' = root.put place (.file content true)) ∨
        root.kindAt? place ≠ some .file ∧ root' = root) := by
  unfold markExecutable at h
  split at h
  · cases h
  · cases h
  · next names old x hlocate =>
    cases h
    obtain ⟨place, hway, hplace⟩ := pathLeads_of_locate hlocate
    obtain ⟨hat⟩ | _ := hplace
    exact ⟨_, hway, .inl ⟨old, x, hat, rfl⟩⟩
  · next names node hnode hlocate =>
    cases h
    obtain ⟨place, hway, hplace⟩ := pathLeads_of_locate hlocate
    obtain ⟨hat⟩ | _ := hplace
    refine ⟨_, hway, .inr ⟨fun hfile => ?_, rfl⟩⟩
    obtain ⟨content, x, hfile⟩ := kindAt?_eq_file.mp hfile
    exact hnode _ _ (Option.some.inj (hat.symm.trans hfile))

/-- A directory is made under the last name of its path, where the others lead. -/
theorem makeDirectory_eq_ok (h : root.makeDirectory cwd path = .ok root') :
    ∃ xs name links parent, namesOf path = xs ++ [name] ∧ IsEntryName name ∧
      Leads root maxLinks (if Path.isAbsolute path then [] else cwd) xs links parent ∧
      root.kindAt? parent = some .directory ∧ root.kindAt? (parent ++ [name]) = none ∧
      root' = root.put (parent ++ [name]) (.dir []) := by
  unfold makeDirectory at h
  split at h
  · cases h
  · cases h
  · next parent name hlocate =>
    cases h
    obtain ⟨habs, hnames⟩ := CommandLine.isAbsolute_namesOf_dropSlashes path
    obtain ⟨xs, links, hxs, hname, hway, hparent, hfree⟩ := leads_of_locate_absent hlocate
    rw [habs] at hway
    exact ⟨xs, name, links, parent, hnames ▸ hxs, hname, hway, hparent, hfree, rfl⟩

/-- What each directory that is made does to a tree, all of them do. -/
theorem makeDirectories_induct {P : Tree → Tree → Prop} (hrefl : ∀ t, P t t)
    (htrans : ∀ {t u v}, P t u → P u v → P t v)
    (hone : ∀ {t u path}, t.makeDirectory cwd path = .ok u → P t u)
    (h : root.makeDirectories cwd path = .ok root') : P root root' := by
  have hwithin : ∀ fuel (root root' : Tree) (path : String),
      makeDirectoriesWithin cwd fuel root path = .ok root' → P root root' := by
    intro fuel
    induction fuel with
    | zero => exact fun root root' path h => hone h
    | succ fuel ih =>
      intro root root' path h
      rw [makeDirectoriesWithin] at h
      split at h
      · cases h
        exact hrefl _
      · split at h
        · next made hmade =>
          cases h
          exact hone hmade
        · split at h
          · cases h
          · next parent hparent =>
            split at h
            · cases h
            · next above habove =>
              split at h
              · next made hmade =>
                cases h
                exact htrans (ih root above parent habove) (hone hmade)
              · split at h <;> cases h
                exact ih _ _ parent habove
        · split at h <;> cases h
          exact hrefl _
  exact hwithin _ root root' path h

/-- Making directories changes no file. -/
theorem leaf?_makeDirectories (h : root.makeDirectories cwd path = .ok root') (q : List String) :
    root'.leaf? q = root.leaf? q := by
  refine makeDirectories_induct (P := fun t u => u.leaf? q = t.leaf? q) (fun _ => rfl)
    (fun h₁ h₂ => h₂.trans h₁) (fun hmade => ?_) h
  obtain ⟨_, _, _, _, _, _, _, hparent, hfree, rfl⟩ := makeDirectory_eq_ok hmade
  exact leaf?_put_dir hparent hfree

/-! ## Trees without links -/

section LinkFree

variable (hroot : root.IsLinkFree)
include hroot

/-- In a tree without links a path leads to what it means. -/
theorem PathLeads.eq_placeOf (h : root.PathLeads cwd path place) : place = placeOf cwd path := by
  obtain ⟨-, links, hway⟩ := h
  exact hway.eq_foldNames (fun hdot => (CommandLine.mem_namesOf hdot).2.1 rfl) fun _ target _ hlink =>
    hroot _ target (leaf?_eq_link.mpr hlink)

/-- A file that is written is where its path says, and no other file is changed. -/
theorem leaf?_write (h : root.write cwd path content = .ok root') :
    ∃ executable, ∀ q, root'.leaf? q =
      if q = placeOf cwd path then some (.file content executable) else root.leaf? q := by
  obtain ⟨place, executable, hway, hplace, rfl⟩ := write_eq_ok h
  obtain rfl := hway.eq_placeOf hroot
  exact ⟨executable, fun q => leaf?_put_file hplace⟩

/-- A file that is marked can be run, and no other file is changed. -/
theorem leaf?_markExecutable
    (hfile : root.leaf? (placeOf cwd path) = some (.file content executable))
    (h : root.markExecutable cwd path = .ok root') : ∀ q, root'.leaf? q =
      if q = placeOf cwd path then some (.file content true) else root.leaf? q := by
  obtain ⟨place, hway, hmarked⟩ := markExecutable_eq_ok h
  obtain rfl := hway.eq_placeOf hroot
  have hat : root.at? (placeOf cwd path) = some (.file content executable) :=
    at?_of_leaf? hfile
  have hkind : root.kindAt? (placeOf cwd path) = some .file := kindAt?_eq_file.mpr ⟨_, _, hat⟩
  obtain ⟨old, x, hold, rfl⟩ | ⟨hnofile, -⟩ := hmarked
  · cases hat.symm.trans hold
    exact fun q => leaf?_put_file (.inr hkind)
  · exact absurd hkind hnofile

end LinkFree

end NetworkCompiler.Tree
