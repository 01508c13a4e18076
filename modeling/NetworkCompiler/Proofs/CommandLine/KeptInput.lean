import Mathlib.Data.List.Infix
import NetworkCompiler.Proofs.CommandLine.Sessions
import NetworkCompiler.Proofs.FileTree.Growth
import NetworkCompiler.Proofs.Lists

/-!
# The input is kept

Before anything is written, the places of the scripts are compared with the one of the input. Names
that exist are resolved as the system does, and what is behind the first missing one is folded : a
`..` takes back the name before it, and a link is a name as any other. When the scripts are written
the missing names are made, and then the system follows links among the names behind them.

So there are two notions : what names are resolved to (`Resolves`), and where they lead in the tree
that writing makes (`Tree.Reaches`). They agree in a tree that has grown (`ne_of_resolves`), but for
links that nothing led over before : those that are folded onto (`FoldsOntoLink`), and those that
lead nowhere. At the latter writing stops.

What a script's steps keep is `KeepsInput`, and the steps of all scripts keep it one after the other,
also if one of them fails. `readBytes_writeScripts` takes the guards and the steps together, and
`readBytes_writeScripts_link` is an input that is written over. The names folded there have a `..`
(`not_foldsOntoLink`).
-/

namespace NetworkCompiler.CommandLine

open Session (platform)

/-- A name that the system gives to an entry of a directory. -/
def IsFileName (name : String) : Prop :=
  IsPlainName name ∧ Char.ofNat 0 ∉ name.toList ∧ name.utf8ByteSize ≤ Tree.maxNameLength

instance (name : String) : Decidable (IsFileName name) :=
  inferInstanceAs (Decidable (_ ∧ _))

/-- The working directory is a directory of the tree, and its names are those of entries. -/
structure Session.IsPlaced (s : Session) : Prop where
  names : ∀ name ∈ s.directory, IsFileName name
  directory : s.tree.kindAt? s.directory = some .directory

/-- Names as they can stand in a path. -/
def AreWritten (names : List String) : Prop :=
  ∀ name ∈ names, name ≠ "" ∧ '/' ∉ name.toList ∧ Char.ofNat 0 ∉ name.toList

theorem AreWritten.mono {names xs : List String} (h : AreWritten names) (hxs : xs ⊆ names) :
    AreWritten xs := fun name hname => h name (hxs hname)

variable {root old new : Tree} {names xs rest place input cwd : List String} {name path : String}
  {s : Session}

/-! ## Names as paths -/

theorem Session.IsPlaced.isDirectoryPlace (h : s.IsPlaced) : s.tree.IsDirectoryPlace s.directory :=
  ⟨fun name hname => ⟨(h.names name hname).1.2.1, (h.names name hname).1.2.2.1,
    (h.names name hname).2.2⟩, h.directory⟩

theorem Session.IsPlaced.areWritten_namesFrom (h : s.IsPlaced)
    (hpath : Char.ofNat 0 ∉ path.toList) : AreWritten (namesFrom s.directory path) := by
  intro name hname
  rcases List.mem_append.mp hname with hname | hname
  · split at hname
    · cases hname
    · obtain ⟨⟨hempty, -, -, hslash⟩, hnul, -⟩ := h.names name hname
      exact ⟨hempty, hslash, hnul⟩
  · obtain ⟨hempty, -, hslash, hsubset⟩ := mem_namesOf hname
    exact ⟨hempty, hslash, fun hnul => hpath (hsubset hnul)⟩

theorem Session.IsPlaced.dot_notMem_namesFrom (h : s.IsPlaced) (path : String) :
    "." ∉ namesFrom s.directory path := by
  intro hdot
  rcases List.mem_append.mp hdot with hdot | hdot
  · split at hdot
    · cases hdot
    · exact (h.names _ hdot).1.2.1 rfl
  · exact (mem_namesOf hdot).2.1 rfl

theorem nul_notMem_absolutePath (hnames : AreWritten names) :
    Char.ofNat 0 ∉ (absolutePath names).toList := by
  intro hmem
  rw [absolutePath, Text.joinWith, String.toList_append, String.toList_intercalate,
    List.mem_append] at hmem
  have hslash : Char.ofNat 0 ∉ "/".toList := by decide
  rcases hmem with hmem | hmem
  · exact hslash hmem
  · rcases mem_intercalate hmem with hmem | ⟨l, hl, hmem⟩
    · exact hslash hmem
    · obtain ⟨name, hname, rfl⟩ := List.mem_map.mp hl
      exact (hnames name hname).2.2 hmem

/-- The system takes names that are written out from the root one after the other. -/
theorem locate_absolutePath (hnames : AreWritten names) :
    root.locate cwd true (absolutePath names) = root.walk true Tree.maxLinks [] names := by
  have hempty : (absolutePath names).isEmpty = false := by simp [absolutePath]
  have habs : Path.isAbsolute (absolutePath names) = true := by
    simp [absolutePath, Path.isAbsolute]
  have hnul : (absolutePath names).toList.contains (Char.ofNat 0) = false := by
    rw [List.contains_eq_mem, decide_eq_false_iff_not]
    exact nul_notMem_absolutePath hnames
  rw [Tree.locate, hempty, hnul, habs,
    components_absolutePath fun name hname => ⟨(hnames name hname).1, (hnames name hname).2.1⟩]
  rfl

theorem canonical?_absolutePath (hnames : AreWritten names) :
    root.canonical? cwd (absolutePath names) = some place ↔ root.Finds names place := by
  unfold Tree.canonical?
  rw [locate_absolutePath hnames]
  refine ⟨fun h => ?_, fun ⟨⟨links, hway⟩, hsome⟩ => ?_⟩
  · split at h
    · next p node hwalk =>
      cases h
      obtain ⟨links, place', hway, hp⟩ := Tree.walk_eq_ok hwalk
      obtain ⟨hat⟩ | _ := hp
      exact ⟨⟨links, hway⟩, by simp [Tree.kindAt?, hat]⟩
    · cases h
  · obtain ⟨k, hk⟩ := Option.isSome_iff_exists.mp hsome
    obtain ⟨u, hu, -⟩ := Tree.kindAt?_eq_some.mp hk
    rw [hway.walk_eq hu]

theorem hasNode_eq (root : Tree) (cwd : List String) (path : String) :
    root.hasNode cwd path = (root.canonical? cwd path).isSome := by
  unfold Tree.hasNode Tree.canonical?
  split <;> simp_all

/-! ## What is compared -/

/-- What names are resolved to : where they lead, or what is left of them if those that lead nowhere
are folded onto where the others lead. -/
inductive Resolves (root : Tree) (names : List String) : List String → Prop where
  | found {place : List String} (h : root.Finds names place) : Resolves root names place
  | folded {xs rest place : List String} {name : String} (hnames : names = xs ++ name :: rest)
      (hplace : root.Finds xs place) (hmissing : ∀ mid, ¬root.Finds (xs ++ [name]) mid) :
      Resolves root names (foldNames place (name :: rest))

theorem finds_of_canonicalNames (hnames : AreWritten names)
    (h : (canonicalNames platform names s).1 = .ok place) : s.tree.Finds names place := by
  have hcanonical : platform.canonical names s =
      ((s.tree.canonical? s.directory (absolutePath names)).elim (.error .notFound) .ok, s) := by
    simp only [platform, bind, StateT.bind, get, getThe, MonadStateOf.get, StateT.get, pure]
    cases s.tree.canonical? s.directory (absolutePath names) <;> rfl
  rw [canonicalNames, run_orFail, hcanonical] at h
  cases hfound : s.tree.canonical? s.directory (absolutePath names) with
  | none =>
    rw [hfound] at h
    cases h
  | some found =>
    rw [hfound] at h
    cases h
    exact (canonical?_absolutePath hnames).mp hfound

theorem resolves_of_resolveFrom (here : List String) {resolved : List String}
    (hnames : AreWritten (here ++ names))
    (h : (resolveFrom platform here names s).1 = .ok resolved) :
    Resolves s.tree (here ++ names) resolved := by
  induction names generalizing here with
  | nil =>
    rw [List.append_nil] at hnames ⊢
    exact .found (finds_of_canonicalNames hnames h)
  | cons name rest ih =>
    have hfirst : AreWritten (here ++ [name]) :=
      hnames.mono (by simp [List.append_subset])
    rw [resolveFrom, (ReadsOnly.lift fun _ => rfl).run_andThen] at h
    change ((if s.tree.hasNode s.directory (absolutePath (here ++ [name])) = true then
      resolveFrom platform (here ++ [name]) rest else _ : Action (StateM Session) _) s).1 = _ at h
    split at h
    · rw [List.append_cons] at hnames ⊢
      exact ih _ hnames h
    · next hmissing =>
      rw [(readsOnly_canonicalNames here).run_andThen] at h
      cases hbase : (canonicalNames platform here s).1 with
      | error e =>
        rw [hbase] at h
        cases h
      | ok base =>
        rw [hbase] at h
        cases h
        refine .folded rfl (finds_of_canonicalNames (hnames.mono (by simp)) hbase) fun mid hmid => ?_
        rw [hasNode_eq, (canonical?_absolutePath hfirst).mpr hmid] at hmissing
        exact hmissing rfl

/-- What a path is resolved to depends on its names from the root. -/
theorem resolves_of_resolve {resolved : List String} (hs : s.IsPlaced)
    (hpath : Char.ofNat 0 ∉ path.toList) (h : (resolve platform path s).1 = .ok resolved) :
    Resolves s.tree (namesFrom s.directory path) resolved := by
  have hstart : resolve platform path s =
      resolveFrom platform [] (namesFrom s.directory path) s := by
    unfold resolve namesFrom
    dsimp only
    split <;> rfl
  rw [hstart] at h
  exact resolves_of_resolveFrom [] (hs.areWritten_namesFrom hpath) h

/-- A path that leads somewhere is resolved to where it leads. -/
theorem Resolves.eq_of_finds {resolved : List String} (h : Resolves root names resolved)
    (hfinds : root.Finds names place) : resolved = place := by
  cases h with
  | found hfound => exact hfound.1.unique hfinds.1
  | @folded xs rest _ name hnames _ hmissing =>
    have hprefix : xs ++ [name] <+: names := ⟨rest, by simp [hnames]⟩
    obtain ⟨mid, hmid⟩ := hfinds.of_prefix hprefix
    exact absurd hmid (hmissing mid)

/-- A path that passes its guard is not resolved to what the input is. -/
theorem refuseSame_eq_ok {e : CommandError} (h : (refuseSame platform path name e s).1 = .ok ()) :
    ∃ resolved resolved', (resolve platform path s).1 = .ok resolved ∧
      (resolve platform name s).1 = .ok resolved' ∧ resolved ≠ resolved' := by
  rw [refuseSame, (readsOnly_resolve name).run_andThen] at h
  cases hinput : (resolve platform name s).1 with
  | error e =>
    rw [hinput] at h
    cases h
  | ok resolved' =>
    rw [hinput] at h
    dsimp only at h
    rw [(readsOnly_resolve path).run_andThen] at h
    cases hpath : (resolve platform path s).1 with
    | error e =>
      rw [hpath] at h
      cases h
    | ok resolved =>
      rw [hpath] at h
      dsimp only at h
      split at h
      · cases h
      · next hne => exact ⟨resolved, resolved', rfl, rfl, hne⟩

/-- If the scripts pass their guard, each of them does. -/
theorem guardScripts_eq_ok {directory input : String} {scripts : List MachineScript}
    (h : (guardScripts platform directory scripts input s).1 = .ok ()) :
    ∀ sc ∈ scripts, (refuseSame platform (scriptPath directory sc) input
      (.scriptIsInput (scriptPath directory sc) sc.machine input) s).1 = .ok () := by
  rw [guardScripts, (readsOnly_refuseSame _ _ _).run_andThen] at h
  split at h
  · exact ReadsOnly.eq_ok_of_run_forM (fun _ => readsOnly_refuseSame _ _ _) h
  · cases h

/-! ## Folded names -/

/-- A name that is free in the directory that the names before it lead to. -/
structure IsFree (root : Tree) (xs : List String) (name : String) (place : List String) : Prop where
  finds : root.Finds xs place
  directory : root.kindAt? place = some .directory
  entry : Tree.IsEntryName name
  free : root.kindAt? (place ++ [name]) = none

/-- Names that come upon a link when those behind a free one are folded. A `..` is among these. -/
def FoldsOntoLink (root : Tree) (names : List String) : Prop :=
  ∃ xs name rest place ys target, names = xs ++ name :: rest ∧ IsFree root xs name place ∧
    ys <+: rest ∧ root.kindAt? (foldNames (place ++ [name]) ys) = some (.link target)

theorem IsFree.not_finds (h : IsFree root xs name place) (mid : List String) :
    ¬root.Finds (xs ++ [name]) mid := fun hmid => by
  have hreaches := h.finds.step fun _ => .free h.entry h.directory h.free
  have hsome := hmid.2
  rw [hmid.1.unique hreaches, h.free] at hsome
  cases hsome

/-- There is one free name at most where names can be cut. -/
theorem IsFree.unique {ys rest rest' place' : List String} {name' : String}
    (h : IsFree root xs name place) (h' : IsFree root ys name' place')
    (hnames : xs ++ name :: rest = ys ++ name' :: rest') :
    xs = ys ∧ name = name' ∧ rest = rest' ∧ place = place' := by
  rcases List.append_eq_append_iff.mp hnames with ⟨zs, rfl, hrest⟩ | ⟨zs, rfl, hrest⟩
  · cases zs with
    | nil =>
      obtain ⟨rfl, rfl⟩ := List.cons.inj hrest
      rw [List.append_nil] at h' ⊢
      exact ⟨rfl, rfl, rfl, h.finds.1.unique h'.finds.1⟩
    | cons z zs =>
      obtain ⟨rfl, -⟩ := List.cons.inj hrest
      obtain ⟨mid, hmid⟩ := h'.finds.of_prefix ⟨zs, List.append_assoc xs [name] zs⟩
      exact absurd hmid (h.not_finds mid)
  · cases zs with
    | nil =>
      obtain ⟨rfl, rfl⟩ := List.cons.inj hrest
      rw [List.append_nil] at h ⊢
      exact ⟨rfl, rfl, rfl, h.finds.1.unique h'.finds.1⟩
    | cons z zs =>
      obtain ⟨rfl, -⟩ := List.cons.inj hrest
      obtain ⟨mid, hmid⟩ := h.finds.of_prefix ⟨zs, List.append_assoc ys [name'] zs⟩
      exact absurd hmid (h'.not_finds mid)

/-- Where the free name is known, only the names behind it count. -/
theorem foldsOntoLink_iff (h : IsFree root xs name place) :
    FoldsOntoLink root (xs ++ name :: rest) ↔
      ∃ ys target, ys <+: rest ∧
        root.kindAt? (foldNames (place ++ [name]) ys) = some (.link target) := by
  refine ⟨fun ⟨_, _, _, _, ys, target, hnames, hfree, hys, hlink⟩ => ?_,
    fun ⟨ys, target, hys, hlink⟩ => ⟨xs, name, rest, place, ys, target, rfl, h, hys, hlink⟩⟩
  obtain ⟨rfl, rfl, rfl, rfl⟩ := h.unique hfree hnames
  exact ⟨ys, target, hys, hlink⟩

theorem foldNames_of_notMem {here : List String} (h : ".." ∉ names) :
    foldNames here names = here ++ names := by
  induction names generalizing here with
  | nil => simp [foldNames]
  | cons name rest ih =>
    rw [List.mem_cons, not_or] at h
    rw [foldNames, if_neg (Ne.symm h.1), ih h.2, List.append_assoc]
    rfl

/-- Without a `..` nothing is folded onto a link. -/
theorem not_foldsOntoLink (h : ".." ∉ names) : ¬FoldsOntoLink root names := by
  rintro ⟨xs, name, rest, mid, ys, target, rfl, hfree, ⟨zs, rfl⟩, hlink⟩
  have hys : ".." ∉ ys := fun hmem => h (by simp [hmem])
  rw [foldNames_of_notMem hys, Tree.kindAt?_eq_link, Tree.at?_append,
    Tree.kindAt?_eq_none.mp hfree.free] at hlink
  cases hlink

/-- In a tree that has grown, what is behind a name that was free leads to where it is folded. -/
theorem IsFree.foldNames_eq {here : List String} {links links' : Nat}
    (h : IsFree old xs name here) (hgrows : old.Grows new) (hdot : "." ∉ xs ++ name :: rest)
    (hfold : ¬FoldsOntoLink old (xs ++ name :: rest))
    (hway : Tree.Leads new links here (name :: rest) links' place) :
    foldNames here (name :: rest) = place := by
  refine (hway.eq_foldNames (fun hmem => hdot (List.mem_append_right _ hmem)) ?_).symm
  intro ys target hys hlink
  cases ys with
  | nil => cases (hgrows.kept h.directory).symm.trans hlink
  | cons y ys =>
    obtain ⟨rfl, hbehind⟩ := List.cons_prefix_cons.mp hys
    rw [foldNames, if_neg h.entry.2.1] at hlink
    exact hfold ⟨xs, y, rest, here, ys, target, rfl, h, hbehind, hgrows.link hlink⟩

/-- In a tree that has grown, names that are resolved to something else than a node that was there
do not lead to it : unless they stop at a link, or are folded onto one. -/
theorem ne_of_resolves (hgrows : old.Grows new) {resolved : List String}
    (hresolves : Resolves old names resolved) (hdot : "." ∉ names) (hway : new.Reaches names place)
    (hinput : (old.kindAt? input).isSome) (hne : resolved ≠ input)
    (hfold : ¬FoldsOntoLink old names) (hstops : old.Stops names → old.Reaches names place) :
    place ≠ input := by
  rintro rfl
  cases hresolves with
  | found hfound => exact hne ((hfound.1.grows hgrows).unique hway)
  | @folded xs rest mid name hnames hmid hmissing =>
    have hnowhere : ∀ {p}, old.Reaches (xs ++ [name]) p → (old.kindAt? p).isSome → False :=
      fun hp hsome => hmissing _ ⟨hp, hsome⟩
    have hpast : ¬old.Reaches names place := fun hreaches => by
      have hprefix : xs ++ [name] <+: names := ⟨rest, by simp [hnames]⟩
      obtain ⟨p, hp⟩ := Tree.Finds.of_prefix ⟨hreaches, hinput⟩ hprefix
      exact hmissing p hp
    subst hnames
    obtain ⟨links, hway⟩ := hway
    obtain ⟨links₁, mid', hfirst, hdirectory, hrest⟩ :=
      (Tree.leads_append (List.cons_ne_nil _ _)).mp hway
    obtain rfl : mid = mid' := (hmid.1.grows hgrows).unique ⟨links₁, hfirst⟩
    have holdDirectory := hgrows.kindAt?_eq hmid.2 hdirectory
    have hfresh : Tree.IsEntryName name → old.kindAt? (mid ++ [name]) = none → False :=
      fun hname hfree =>
        hne (IsFree.foldNames_eq ⟨hmid, holdDirectory, hname, hfree⟩ hgrows hdot hfold hrest)
    cases hrest with
    | stay hname => exact hdot (by simp [hname])
    | leave hup _ =>
      have hparent := Tree.kindAt?_dropLast holdDirectory
      exact hnowhere (hmid.step fun _ => .leave hup holdDirectory (.done (by simp [hparent])))
        (by simp [hparent])
    | enter hname hkind hlink _ =>
      by_cases hold : (old.kindAt? (mid ++ [name])).isSome
      · exact hnowhere (hmid.step fun _ =>
          .enter hname (hgrows.kindAt?_eq hold hkind) hlink (.done hold)) hold
      · exact hfresh hname (Option.not_isSome_iff_eq_none.mp hold)
    | follow hname hkind _ _ =>
      exact hpast (hstops
        ⟨xs, name, mid, _, ⟨rest, by simp⟩, hmid, hgrows.link hkind, hmissing⟩)
    | free hname _ hkind =>
      refine hfresh hname ?_
      cases hold : old.kindAt? (mid ++ [name]) with
      | none => rfl
      | some k => cases hkind.symm.trans (hgrows.kept hold)

/-! ## Writing -/

/-- What writing scripts to a directory makes of a tree, if the input is at `input` : the tree has
grown, and the input is as it was. If there was a directory already, no other was made; if its names
stopped at a link, nothing was written. -/
structure KeepsInput (directory input : List String) (old new : Tree) : Prop where
  grows : old.Grows new
  input : new.leaf? input = old.leaf? input
  directories : ∀ place, old.Finds directory place → new.HasDirectoriesOf old
  stopped : old.Stops directory → new = old

/-- What the guard says of the names of a script. -/
structure IsGuarded (root : Tree) (names input : List String) : Prop where
  present : (root.kindAt? input).isSome
  resolves : ∃ resolved, Resolves root names resolved ∧ resolved ≠ input
  dot : "." ∉ names
  fold : ¬FoldsOntoLink root names

namespace KeepsInput

variable {directory : List String}

theorem refl (directory input : List String) (old : Tree) : KeepsInput directory input old old :=
  ⟨.refl old, rfl, fun _ _ _ => id, fun _ => rfl⟩

variable (h : KeepsInput directory input old new)
include h

/-- A script that passed its guard does not go to the input. -/
theorem ne_input (hguard : IsGuarded old (directory ++ [name]) input)
    (hway : new.Reaches (directory ++ [name]) place) : place ≠ input := by
  obtain ⟨hinput, ⟨resolved, hresolves, hne⟩, hdot, hfold⟩ := hguard
  refine ne_of_resolves h.grows hresolves hdot hway hinput hne hfold fun hstops => ?_
  obtain ⟨xs, link, mid, target, hprefix, hmid, hlink, hmissing⟩ := hstops
  rcases List.prefix_concat_iff.mp hprefix with heq | hprefix
  · -- the script itself is a link, in a directory that was there
    obtain ⟨rfl, -⟩ := List.append_inj' heq rfl
    obtain ⟨links, hway⟩ := hway
    exact ⟨links, hway.shrinks h.grows (h.directories mid hmid) rfl⟩
  · rwa [← h.stopped ⟨xs, link, mid, target, hprefix, hmid, hlink, hmissing⟩]

/-- A file that is put where a script leads. -/
theorem put_file {content : ByteArray} {executable : Bool}
    (hguard : IsGuarded old (directory ++ [name]) input)
    (hway : new.Reaches (directory ++ [name]) place) (hplace : new.IsFilePlace place) :
    KeepsInput directory input old (new.put place (.file content executable)) := by
  refine ⟨h.grows.trans (Tree.grows_put_file hplace), ?_, fun p hp names hnames => ?_,
    fun hstops => ?_⟩
  · rw [Tree.leaf?_put_file hplace, if_neg (h.ne_input hguard hway).symm]
    exact h.input
  · exact h.directories p hp names (Tree.hasDirectoriesOf_put_file hplace names hnames)
  · obtain ⟨xs, link, mid, target, hprefix, -, -, hmissing⟩ := id hstops
    rw [h.stopped hstops] at hway
    obtain ⟨p, hp, -⟩ := hway.of_append_cons
    obtain ⟨q, hq⟩ := hp.of_prefix hprefix
    exact absurd hq (hmissing q)

/-- Directories on the way to the scripts. -/
theorem makeDirectories (hcwd : old.IsDirectoryPlace cwd)
    (hdirectory : directory = namesFrom cwd path)
    (hmade : new.makeDirectories cwd path = .ok root) : KeepsInput directory input old root := by
  subst hdirectory
  refine ⟨h.grows.trans (Tree.grows_makeDirectories hmade),
    (Tree.leaf?_makeDirectories hmade _).trans h.input, fun place hplace => ?_, fun hstops => ?_⟩
  · rw [Tree.makeDirectoriesWithin_of_finds (h.grows.isDirectoryPlace hcwd) _
      (hplace.grows h.grows) hmade]
    exact h.directories place hplace
  · rw [h.stopped hstops] at hmade
    exact absurd hmade (Tree.makeDirectoriesWithin_of_stops hcwd _ hstops)

end KeepsInput

/-- An action that keeps what is true of a session, whether it succeeds or fails. -/
def Keeps (P : Session → Prop) {α : Type} (x : Action (StateM Session) α) : Prop :=
  ∀ s, P s → P (x s).2

namespace Keeps

variable {P : Session → Prop} {α β : Type}

theorem andThen {x : Action (StateM Session) α} {f : α → Action (StateM Session) β}
    (hx : Keeps P x) (hf : ∀ a, Keeps P (f a)) :
    Keeps P (x >>= f : Action (StateM Session) β) := by
  intro s hs
  have hfirst := hx s hs
  rw [run_andThen]
  generalize x s = r at hfirst
  obtain ⟨_ | a, s'⟩ := r
  · exact hfirst
  · exact hf a s' hfirst

theorem forM {xs : List α} {f : α → Action (StateM Session) Unit} (hf : ∀ a ∈ xs, Keeps P (f a)) :
    Keeps P (xs.forM f) := by
  induction xs with
  | nil => exact fun _ hs => hs
  | cons a xs ih =>
    exact (hf a List.mem_cons_self).andThen fun _ =>
      ih fun a ha => hf a (List.mem_cons_of_mem _ ha)

theorem change {e : FileFault → CommandError} {g : Session → Except FileFault Tree}
    (hg : ∀ s tree, P s → g s = .ok tree → P { s with tree := tree }) :
    Keeps P (orFail e (Session.change g)) := by
  intro s hs
  rw [run_orFail_change]
  split
  · next tree htree => exact hg s tree hs htree
  · exact hs

end Keeps

/-- Writing a script that passed its guard keeps the input. -/
theorem keeps_writeScript {directory network : String} {sc : MachineScript}
    (hsc : isLabel sc.machine = true) (hcwd : old.IsDirectoryPlace cwd)
    (hguard : Char.ofNat 0 ∉ (scriptPath directory sc).toList →
      IsGuarded old (namesFrom cwd (scriptPath directory sc)) input) :
    Keeps (fun s => s.directory = cwd ∧ KeepsInput (namesFrom cwd directory) input old s.tree)
      (writeScript platform network directory sc) := by
  have hnames : namesFrom cwd (scriptPath directory sc) = namesFrom cwd directory ++ [sc.fileName] :=
    namesFrom_join_of_isPlainName cwd directory (isPlainName_fileName hsc)
  rw [hnames] at hguard
  refine Keeps.andThen (Keeps.change fun s tree ⟨hs, hkeeps⟩ hmade => ⟨hs, ?_⟩) fun _ =>
    Keeps.andThen (Keeps.change fun s tree ⟨hs, hkeeps⟩ hwritten => ⟨hs, ?_⟩) fun _ =>
      Keeps.change fun s tree ⟨hs, hkeeps⟩ hmarked => ⟨hs, ?_⟩
  · subst hs
    exact hkeeps.makeDirectories hcwd rfl hmade
  · subst hs
    obtain ⟨place, executable, hway, hplace, rfl⟩ := Tree.write_eq_ok hwritten
    have hreaches := hway.reaches (hkeeps.grows.isDirectoryPlace hcwd)
    exact hkeeps.put_file (hguard hway.1) (hnames ▸ hreaches) hplace
  · subst hs
    obtain ⟨place, hway, ⟨content, executable, hat, rfl⟩ | ⟨-, rfl⟩⟩ :=
      Tree.markExecutable_eq_ok hmarked
    · have hreaches := hway.reaches (hkeeps.grows.isDirectoryPlace hcwd)
      exact hkeeps.put_file (hguard hway.1) (hnames ▸ hreaches)
        (.inr (Tree.kindAt?_eq_file.mpr ⟨_, _, hat⟩))
    · exact hkeeps

/-- If the output and the scripts of a network pass their guards, then writing the scripts leaves the
bytes of the input as they are, in every tree and for every path, whether it succeeds or fails :
unless the names of a script are folded onto a link. -/
theorem readBytes_writeScripts (s : Session) (hs : s.IsPlaced) (out network input : String)
    (scripts : List MachineScript) (content : ByteArray)
    (hscripts : ∀ sc ∈ scripts, isLabel sc.machine = true)
    (hinput : s.tree.readBytes s.directory input = .ok content)
    (hguard : ((do
      guardOutput platform out input
      guardScripts platform (Path.join out network) scripts input) s).1 = .ok ())
    (hfold : ∀ sc ∈ scripts,
      ¬FoldsOntoLink s.tree (namesFrom s.directory (scriptPath (Path.join out network) sc))) :
    (writeScripts platform network (Path.join out network) scripts s).2.tree.readBytes
      s.directory input = .ok content := by
  rw [(readsOnly_guardOutput _ _).run_andThen] at hguard
  split at hguard
  · obtain ⟨place, executable, hlocate, hleaf⟩ := Tree.readBytes_eq_ok hinput
    have hcwd := hs.isDirectoryPlace
    obtain ⟨place', hway, hplace⟩ := Tree.pathLeads_of_locate hlocate
    obtain ⟨hat⟩ | _ := hplace
    have hfinds : s.tree.Finds (namesFrom s.directory input) place :=
      ⟨hway.reaches hcwd, by simp [Tree.kindAt?, hat]⟩
    have hkeeps : Keeps _ (writeScripts platform network (Path.join out network) scripts) :=
      Keeps.forM fun sc hsc => keeps_writeScript (hscripts sc hsc) hcwd fun hnul => by
        obtain ⟨resolved, resolved', hresolved, hresolved', hne⟩ :=
          refuseSame_eq_ok (guardScripts_eq_ok hguard sc hsc)
        obtain rfl := (resolves_of_resolve hs hway.1 hresolved').eq_of_finds hfinds
        exact ⟨hfinds.2, ⟨resolved, resolves_of_resolve hs hnul hresolved, hne⟩,
          hs.dot_notMem_namesFrom _, hfold sc hsc⟩
    obtain ⟨-, hkept⟩ := hkeeps s ⟨rfl, .refl _ place s.tree⟩
    exact Tree.readBytes_grows hkept.grows hlocate (hkept.input.trans hleaf)
  · cases hguard

section Examples

/-- A network of one router. -/
def routerDocument : String :=
  "\x7b\"lab\": \x7b\"servers\": \x7b\"router\": \x7b\"types\": [\"router\"]\x7d\x7d\x7d\x7d"

/-- A script of the router. -/
def routerScript : MachineScript :=
  ⟨"router", .audit, 0, "#!/bin/sh\n"⟩

/-- A working directory with a document, and with a link to the directory above it. -/
def linkedSession : Session where
  tree := .dir [("work", .dir
    [("in", .dir [("lab", .dir [("router.audit.sh", .file routerDocument.toUTF8 false)])]),
      ("link", .link "in")])]
  directory := ["work"]

theorem isPlaced_linkedSession : linkedSession.IsPlaced where
  names := by decide
  directory := rfl

theorem readBytes_writeScripts_other :
    ((do
      guardOutput platform "missing/../other" "in/lab/router.audit.sh"
      guardScripts platform (Path.join "missing/../other" "lab") [routerScript]
        "in/lab/router.audit.sh") linkedSession).1 = .ok () ∧
    (writeScripts platform "lab" (Path.join "missing/../other" "lab") [routerScript]
      linkedSession).2.tree.readBytes linkedSession.directory "in/lab/router.audit.sh" =
        .ok routerDocument.toUTF8 := by
  have hguard : ((do
      guardOutput platform "missing/../other" "in/lab/router.audit.sh"
      guardScripts platform (Path.join "missing/../other" "lab") [routerScript]
        "in/lab/router.audit.sh") linkedSession).1 = .ok () := by
    decide +kernel
  have hinput : linkedSession.tree.readBytes linkedSession.directory "in/lab/router.audit.sh" =
      .ok routerDocument.toUTF8 := by
    decide +kernel
  have hnames : namesFrom linkedSession.directory
      (scriptPath (Path.join "missing/../other" "lab") routerScript) =
      ["work"] ++ "missing" :: ["..", "other", "lab", "router.audit.sh"] := by decide +kernel
  have hfree : IsFree linkedSession.tree ["work"] "missing" ["work"] :=
    ⟨isPlaced_linkedSession.isDirectoryPlace.finds, by decide +kernel, by decide +kernel,
      by decide +kernel⟩
  have hplaces : ∀ ys ∈ ["..", "other", "lab", "router.audit.sh"].inits,
      linkedSession.tree.kindAt? (foldNames ["work", "missing"] ys) = none ∨
        linkedSession.tree.kindAt? (foldNames ["work", "missing"] ys) = some .directory := by
    decide +kernel
  have hfold : ∀ sc ∈ [routerScript], ¬FoldsOntoLink linkedSession.tree
      (namesFrom linkedSession.directory (scriptPath (Path.join "missing/../other" "lab") sc)) := by
    rw [List.forall_mem_singleton, hnames, foldsOntoLink_iff hfree]
    rintro ⟨ys, target, hys, hlink⟩
    rcases hplaces ys ((List.mem_inits _ _).mpr hys) with hnone | hdirectory
    · cases hnone.symm.trans hlink
    · cases hdirectory.symm.trans hlink
  exact ⟨hguard, readBytes_writeScripts linkedSession isPlaced_linkedSession _ _ _ _ _ (by decide)
    hinput hguard hfold⟩

/-- The same scripts go to a directory that is folded onto the link : it is none of the input's as
long as a name on the way to it is missing, and the input's once that is made. -/
theorem readBytes_writeScripts_link :
    linkedSession.IsPlaced ∧ isLabel routerScript.machine = true ∧
    linkedSession.tree.readBytes linkedSession.directory "in/lab/router.audit.sh" =
      .ok routerDocument.toUTF8 ∧
    ((do
      guardOutput platform "missing/../link" "in/lab/router.audit.sh"
      guardScripts platform (Path.join "missing/../link" "lab") [routerScript]
        "in/lab/router.audit.sh") linkedSession).1 = .ok () ∧
    (writeScripts platform "lab" (Path.join "missing/../link" "lab") [routerScript]
      linkedSession).2.tree.readBytes linkedSession.directory "in/lab/router.audit.sh" =
        .ok routerScript.text.toUTF8 ∧
    routerScript.text.toUTF8 ≠ routerDocument.toUTF8 :=
  ⟨isPlaced_linkedSession, by decide, by decide +kernel, by decide +kernel, by decide +kernel,
    by decide⟩

end Examples

end NetworkCompiler.CommandLine
