import NetworkCompiler.CommandLine.Session
import NetworkCompiler.Proofs.FileTree.Leaves

/-!
# Actions in sessions

What actions do to the files of a session. Some only look (`ReadsOnly`) : loading inputs and
guarding paths leave the session as it is. Others write (`Writes`) : whether such an action
succeeds or fails, it changes no file but those it is meant to write, and if it succeeds they are
as written, the last one where several go to the same names (`afterWrites`). Both are closed under
doing one thing after the other.
-/

namespace NetworkCompiler.CommandLine

open Session (platform)

variable {α β ε : Type}

/-! ## Running -/

theorem run_bind (x : StateM Session α) (f : α → StateM Session β) (s : Session) :
    (x >>= f) s = f (x s).1 (x s).2 := rfl

/-- One action after the other, unless the first fails. -/
theorem run_andThen (x : Action (StateM Session) α) (f : α → Action (StateM Session) β)
    (s : Session) : (x >>= f : Action (StateM Session) β) s = match x s with
      | (.ok a, s') => f a s'
      | (.error e, s') => (.error e, s') := by
  change (ExceptT.bindCont f (x s).1 : StateM Session _) (x s).2 = _
  generalize x s = r
  obtain ⟨_ | _, _⟩ := r <;> rfl

theorem run_orFail (e : ε → CommandError) (x : StateM Session (Except ε α)) (s : Session) :
    orFail e x s = ((x s).1.mapError e, (x s).2) := by
  have hlift : (ExceptT.lift x : Action (StateM Session) (Except ε α)) s =
      (.ok (x s).1, (x s).2) := rfl
  unfold orFail
  rw [run_andThen, hlift]
  cases (x s).1 <;> rfl

theorem run_orFail_change (e : FileFault → CommandError) (g : Session → Except FileFault Tree)
    (s : Session) : orFail e (Session.change g) s = match g s with
      | .ok tree => (.ok (), { s with tree := tree })
      | .error cause => (.error (e cause), s) := by
  have hchange : Session.change g s = match g s with
      | .ok tree => (.ok (), { s with tree := tree })
      | .error cause => (.error cause, s) := by
    change (match g s with
      | .ok tree => _
      | .error cause => _ : StateM Session _) s = _
    cases g s <;> rfl
  rw [run_orFail, hchange]
  cases g s <;> rfl

/-! ## Looking -/

/-- An action that leaves the session as it is. -/
def ReadsOnly (x : StateM Session α) : Prop :=
  ∀ s, (x s).2 = s

namespace ReadsOnly

theorem pure (a : α) : ReadsOnly (Pure.pure a : StateM Session α) := fun _ => rfl

theorem bind {x : StateM Session α} {f : α → StateM Session β} (hx : ReadsOnly x)
    (hf : ∀ a, ReadsOnly (f a)) : ReadsOnly (x >>= f) := fun s => by
  rw [run_bind, hf, hx]

theorem throw (e : CommandError) : ReadsOnly (throw e : Action (StateM Session) α) :=
  fun _ => rfl

theorem lift {x : StateM Session α} (hx : ReadsOnly x) :
    ReadsOnly (ExceptT.lift x : Action (StateM Session) α) :=
  hx.bind fun _ => pure _

theorem andThen {x : Action (StateM Session) α} {f : α → Action (StateM Session) β}
    (hx : ReadsOnly x) (hf : ∀ a, ReadsOnly (f a)) :
    ReadsOnly (x >>= f : Action (StateM Session) β) :=
  bind (f := ExceptT.bindCont f) hx fun r => by
    cases r with
    | ok a => exact hf a
    | error e => exact throw e

theorem orFail {f : ε → CommandError} {x : StateM Session (Except ε α)} (hx : ReadsOnly x) :
    ReadsOnly (orFail f x) :=
  hx.lift.andThen fun r => by
    cases r with
    | ok a => exact pure _
    | error e => exact throw _

/-- What is looked up is there for what comes next, in the same session. -/
theorem run_andThen {x : Action (StateM Session) α} (hx : ReadsOnly x)
    (f : α → Action (StateM Session) β) (s : Session) :
    (x >>= f : Action (StateM Session) β) s = match (x s).1 with
      | .ok a => f a s
      | .error e => (.error e, s) := by
  rw [CommandLine.run_andThen, ← Prod.eta (x s), hx s]
  cases (x s).1 <;> rfl

theorem forM {f : α → Action (StateM Session) Unit} (hf : ∀ a, ReadsOnly (f a)) (xs : List α) :
    ReadsOnly (xs.forM f : Action (StateM Session) Unit) := by
  induction xs with
  | nil => exact pure _
  | cons a xs ih => exact (hf a).andThen fun _ => ih

/-- If actions that only look succeed one after the other, each of them succeeds on its own. -/
theorem eq_ok_of_run_forM {f : α → Action (StateM Session) Unit} (hf : ∀ a, ReadsOnly (f a))
    {xs : List α} {s : Session} (h : ((xs.forM f : Action (StateM Session) Unit) s).1 = .ok ()) :
    ∀ a ∈ xs, (f a s).1 = .ok () := by
  induction xs with
  | nil => nofun
  | cons a xs ih =>
    change ((f a >>= fun _ => xs.forM f : Action (StateM Session) Unit) s).1 = _ at h
    rw [(hf a).run_andThen] at h
    split at h
    · next hfirst => exact List.forall_mem_cons.mpr ⟨hfirst, ih h⟩
    · cases h

end ReadsOnly

section Reading

theorem readsOnly_readText (path : String) : ReadsOnly (platform.readText path) :=
  ReadsOnly.bind (fun _ => rfl) fun r => by
    cases r with
    | error cause => exact ReadsOnly.pure _
    | ok content =>
      dsimp only
      cases Text.decode? content <;> exact ReadsOnly.pure _

theorem readsOnly_readObject (path : String) : ReadsOnly (readObject platform.readText path) :=
  (readsOnly_readText path).bind fun r => by cases r <;> exact ReadsOnly.pure _

theorem readsOnly_resolveInclude (base network : String) (entry : Json.Value) :
    ReadsOnly (resolveInclude platform.readText base network entry) := by
  unfold resolveInclude
  split
  · dsimp only
    split
    · exact ReadsOnly.pure _
    · refine (readsOnly_readObject _).bind fun r => ?_
      split
      · exact ReadsOnly.pure _
      · split <;> exact ReadsOnly.pure _
    · exact ReadsOnly.pure _
  · exact ReadsOnly.pure _

theorem readsOnly_resolveNetworks (origin base : String) (members : List (String × Json.Value)) :
    ReadsOnly (resolveNetworks platform.readText origin base members) := by
  induction members with
  | nil => exact ReadsOnly.pure _
  | cons member members ih =>
    refine (readsOnly_resolveInclude _ _ _).bind fun r => ?_
    split
    · exact ReadsOnly.pure _
    · split
      · exact ReadsOnly.pure _
      · refine ih.bind fun r => ?_
        split <;> exact ReadsOnly.pure _

theorem readsOnly_loadNetworks (path : String) : ReadsOnly (loadNetworks platform.readText path) :=
  (readsOnly_readObject path).bind fun r => by
    cases r with
    | error e => exact ReadsOnly.pure _
    | ok members => exact readsOnly_resolveNetworks _ _ members

theorem readsOnly_loadSettings (path : Option String) :
    ReadsOnly (loadSettings platform path) := by
  cases path with
  | none => exact ReadsOnly.pure _
  | some path =>
    refine (readsOnly_readText path).orFail.andThen fun text => ?_
    split
    · exact ReadsOnly.pure _
    · exact ReadsOnly.throw _

theorem readsOnly_loadSecrets (path : Option String) : ReadsOnly (loadSecrets platform path) := by
  cases path with
  | none => exact ReadsOnly.pure _
  | some path =>
    refine (readsOnly_readText path).orFail.andThen fun text => ?_
    split
    · exact ReadsOnly.pure _
    · exact ReadsOnly.throw _

theorem readsOnly_selectNetworks (path : String) (network : Option String) :
    ReadsOnly (selectNetworks platform path network) := by
  refine (readsOnly_loadNetworks path).orFail.andThen fun networks => ?_
  split
  · exact ReadsOnly.pure _
  · split
    · exact ReadsOnly.pure _
    · exact ReadsOnly.throw _

/-! ### Guarding -/

theorem readsOnly_canonicalNames (names : List String) :
    ReadsOnly (canonicalNames platform names) := by
  refine ReadsOnly.orFail (ReadsOnly.bind (fun _ => rfl) fun s => ?_)
  split <;> exact ReadsOnly.pure _

theorem readsOnly_resolveFrom (here names : List String) :
    ReadsOnly (resolveFrom platform here names) := by
  induction names generalizing here with
  | nil => exact readsOnly_canonicalNames here
  | cons name rest ih =>
    refine ReadsOnly.andThen (ReadsOnly.lift fun _ => rfl) fun found => ?_
    split
    · exact ih _
    · exact (readsOnly_canonicalNames here).andThen fun _ => ReadsOnly.pure _

theorem readsOnly_resolve (path : String) : ReadsOnly (resolve platform path) := by
  unfold resolve
  dsimp only
  split
  · exact (ReadsOnly.pure _).andThen fun start => readsOnly_resolveFrom _ _
  · exact (ReadsOnly.lift fun _ => rfl).andThen fun start => readsOnly_resolveFrom _ _

theorem readsOnly_refuseSame (path input : String) (e : CommandError) :
    ReadsOnly (refuseSame platform path input e) :=
  (readsOnly_resolve input).andThen fun inputNames =>
    (readsOnly_resolve path).andThen fun names => by
    split
    · exact ReadsOnly.throw e
    · exact ReadsOnly.pure _

theorem readsOnly_guardOutput (out input : String) : ReadsOnly (guardOutput platform out input) :=
  readsOnly_refuseSame _ _ _

theorem readsOnly_guardScripts (directory : String) (scripts : List MachineScript)
    (input : String) : ReadsOnly (guardScripts platform directory scripts input) :=
  (readsOnly_refuseSame _ _ _).andThen fun _ =>
    ReadsOnly.forM (fun _ => readsOnly_refuseSame _ _ _) scripts

end Reading

/-! ## Writing -/

/-- What there is after files were written in this order : the last one that went to a place, else
what was there. -/
def afterWrites (files : List (List String × String)) (leaf : List String → Option Tree)
    (place : List String) : Option Tree :=
  match files.reverse.find? fun f => f.1 = place with
  | some f => some (.file f.2.toUTF8 true)
  | none => leaf place

theorem afterWrites_append (files files' : List (List String × String))
    (leaf : List String → Option Tree) :
    afterWrites (files ++ files') leaf = afterWrites files' (afterWrites files leaf) := by
  funext place
  unfold afterWrites
  rw [List.reverse_append, List.find?_append]
  cases files'.reverse.find? fun f => f.1 = place <;> rfl

/-- What is left of writing files in a session : every file is as it was or one of those, and if
the end was reached they all are written. -/
structure Leaves (files : List (List String × String)) (s : Session)
    (r : Except CommandError α × Session) : Prop where
  directory : r.2.directory = s.directory
  leaf? : ∀ place, r.2.tree.leaf? place = s.tree.leaf? place ∨ ∃ f ∈ files, f.1 = place ∧
    ∃ executable, r.2.tree.leaf? place = some (.file f.2.toUTF8 executable)
  written : ∀ a, r.1 = .ok a → r.2.tree.leaf? = afterWrites files s.tree.leaf?

theorem Leaves.isLinkFree {files : List (List String × String)} {s : Session}
    {r : Except CommandError α × Session} (h : Leaves files s r) (hs : s.tree.IsLinkFree) :
    r.2.tree.IsLinkFree := by
  intro place target hlink
  obtain hsame | ⟨f, -, -, executable, hfile⟩ := h.leaf? place
  · exact hs place target (hsame ▸ hlink)
  · cases hfile.symm.trans hlink

/-- One file was put in its place, and marked if the end was reached. -/
theorem Leaves.of_file {s : Session} {r : Except CommandError α × Session} {path : List String}
    {text : String} {executable : Bool} (hdirectory : r.2.directory = s.directory)
    (hleaf : ∀ place, r.2.tree.leaf? place =
      if place = path then some (.file text.toUTF8 executable) else s.tree.leaf? place)
    (hmarked : ∀ a, r.1 = .ok a → executable = true) : Leaves [(path, text)] s r := by
  refine ⟨hdirectory, fun place => ?_, fun a ha => funext fun place => ?_⟩
  · rw [hleaf]
    split
    · next h => exact .inr ⟨_, List.mem_singleton_self _, h.symm, executable, rfl⟩
    · exact .inl rfl
  · rw [hleaf, hmarked a ha, afterWrites, List.reverse_singleton]
    by_cases h : place = path
    · rw [if_pos h, List.find?_cons_of_pos (by simp [h])]
    · rw [if_neg h, List.find?_cons_of_neg (by simpa using Ne.symm h)]
      rfl

/-- An action that writes files, from any session with the working directory `cwd` and without
links. -/
def Writes (cwd : List String) (files : List (List String × String))
    (x : Action (StateM Session) α) : Prop :=
  ∀ s, s.directory = cwd → s.tree.IsLinkFree → Leaves files s (x s)

namespace Writes

variable {cwd : List String} {files files' : List (List String × String)}

theorem throw (e : CommandError) :
    Writes cwd files (throw e : Action (StateM Session) α) := fun _ _ _ =>
  ⟨rfl, fun _ => .inl rfl, nofun⟩

/-- An action that changes no file. -/
theorem of_keeps {x : Action (StateM Session) α}
    (h : ∀ s, (x s).2.directory = s.directory ∧ (x s).2.tree.leaf? = s.tree.leaf?) :
    Writes cwd [] x := fun s _ _ =>
  ⟨(h s).1, fun place => .inl (congrFun (h s).2 place), fun _ _ => (h s).2⟩

theorem of_readsOnly {x : Action (StateM Session) α} (hx : ReadsOnly x) : Writes cwd [] x :=
  of_keeps fun s => by
    rw [hx s]
    exact ⟨rfl, rfl⟩

/-- The files of one action, then those of the other. -/
theorem andThen {x : Action (StateM Session) α} {f : α → Action (StateM Session) β}
    (hx : Writes cwd files x) (hf : ∀ a, Writes cwd files' (f a)) :
    Writes cwd (files ++ files') (x >>= f : Action (StateM Session) β) := by
  intro s hcwd hs
  have hfirst := hx s hcwd hs
  rw [run_andThen]
  generalize x s = r at hfirst
  obtain ⟨result, s'⟩ := r
  cases result with
  | error e =>
    refine ⟨hfirst.directory, fun place => (hfirst.leaf? place).imp_right ?_, nofun⟩
    exact fun ⟨file, hmem, hfile⟩ => ⟨file, List.mem_append_left _ hmem, hfile⟩
  | ok a =>
    have hsecond := hf a s' (hfirst.directory.trans hcwd) (hfirst.isLinkFree hs)
    refine ⟨hsecond.directory.trans hfirst.directory, fun place => ?_, fun b hb => ?_⟩
    · obtain hsame | ⟨file, hmem, hfile⟩ := hsecond.leaf? place
      · obtain hsame' | ⟨file, hmem, hplace, executable, hfile⟩ := hfirst.leaf? place
        · exact .inl (hsame.trans hsame')
        · exact .inr ⟨file, List.mem_append_left _ hmem, hplace, executable, hsame.trans hfile⟩
      · exact .inr ⟨file, List.mem_append_right _ hmem, hfile⟩
    · rw [afterWrites_append, ← hfirst.written a rfl]
      exact hsecond.written b hb

/-- Actions for the elements of a list write what each of them writes. -/
theorem mapM {xs : List α} {f : α → Action (StateM Session) β}
    {filesOf : α → List (List String × String)} (hf : ∀ a ∈ xs, Writes cwd (filesOf a) (f a)) :
    Writes cwd (xs.flatMap filesOf) (xs.mapM f) := by
  induction xs with
  | nil => exact of_readsOnly (ReadsOnly.pure _)
  | cons a xs ih =>
    rw [List.mapM_cons, List.flatMap_cons]
    refine (hf a List.mem_cons_self).andThen fun b => ?_
    rw [← List.append_nil (xs.flatMap filesOf)]
    exact (ih fun a ha => hf a (List.mem_cons_of_mem _ ha)).andThen fun bs =>
      of_readsOnly (ReadsOnly.pure _)

theorem forM {xs : List α} {f : α → Action (StateM Session) Unit}
    {filesOf : α → List (List String × String)} (hf : ∀ a ∈ xs, Writes cwd (filesOf a) (f a)) :
    Writes cwd (xs.flatMap filesOf) (xs.forM f) := by
  induction xs with
  | nil => exact of_readsOnly (ReadsOnly.pure _)
  | cons a xs ih =>
    rw [List.flatMap_cons]
    exact (hf a List.mem_cons_self).andThen fun _ =>
      ih fun a ha => hf a (List.mem_cons_of_mem _ ha)

end Writes

/-! ### Scripts -/

section Scripts

variable {cwd : List String}

theorem writes_makeDirectories (e : FileFault → CommandError) (path : String) :
    Writes cwd [] (orFail e (platform.makeDirectories path)) :=
  Writes.of_keeps fun s => by
    rw [show platform.makeDirectories path = Session.change _ from rfl, run_orFail_change]
    split
    · next tree htree => exact ⟨rfl, funext (Tree.leaf?_makeDirectories htree)⟩
    · exact ⟨rfl, rfl⟩

/-- A file that is written and then marked. -/
theorem writes_file (e : FileFault → CommandError) (path text : String) :
    Writes cwd [(placeOf cwd path, text)] (do
      orFail e (platform.writeBytes path text.toUTF8)
      orFail e (platform.markExecutable path)) := by
  rintro s rfl hs
  rw [run_andThen, show platform.writeBytes path text.toUTF8 = Session.change _ from rfl,
    run_orFail_change]
  cases hwrite : s.tree.write s.directory path text.toUTF8 with
  | error cause => exact ⟨rfl, fun _ => .inl rfl, nofun⟩
  | ok tree =>
    obtain ⟨executable, hleaf⟩ := Tree.leaf?_write hs hwrite
    have hfile : tree.leaf? (placeOf s.directory path) = some (.file text.toUTF8 executable) :=
      (hleaf _).trans (if_pos rfl)
    have hwritten : tree.IsLinkFree := fun place target hlink => by
      rw [hleaf] at hlink
      split at hlink
      · cases hlink
      · exact hs place target hlink
    dsimp only
    rw [show platform.markExecutable path = Session.change _ from rfl, run_orFail_change]
    cases hmark : tree.markExecutable s.directory path with
    | error cause => exact .of_file rfl hleaf nofun
    | ok marked =>
      have hboth := Tree.leaf?_markExecutable hwritten hfile hmark
      refine .of_file rfl (fun place => (hboth place).trans ?_) fun _ _ => rfl
      split
      · rfl
      · next h => exact (hleaf place).trans (if_neg h)

/-- A script is written to the file that its path means. -/
theorem writes_writeScript (network directory : String) (sc : MachineScript) :
    Writes cwd [(placeOf cwd (scriptPath directory sc), sc.text)]
      (writeScript platform network directory sc) :=
  (writes_makeDirectories _ _).andThen fun _ => writes_file _ _ _

end Scripts

end NetworkCompiler.CommandLine
