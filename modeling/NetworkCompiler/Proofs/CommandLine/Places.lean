import NetworkCompiler.CommandLine.OutputGuard
import NetworkCompiler.FileTree.Tree
import NetworkCompiler.Network.InterfaceEntries
import NetworkCompiler.Proofs.Text.Lines

/-!
# What paths mean

A path means the names that are left when the dots in it are taken away and every `..` has dropped
the name before it (`placeOf`). What a joined path means follows from its parts
(`placeOf_join`) : an absolute part starts afresh, and only a part that is a plain name
(`IsPlainName`) is just put behind. The file of a script has a plain name, from which the machine
and the mode can be read off (`fileName_inj`).

Where there are links a `..` means what the names before it lead to, so there the names of a path are
left as they stand (`namesFrom`). They are the same for a path that is written out from the root
(`components_absolutePath`), and for one that lost pieces without a meaning (`dropIdle_eq`).
-/

namespace NetworkCompiler

open Text.Chars (splitAt_append_sep splitAt_cons splitAt_of_not_mem)

namespace CommandLine

/-- A name that stands for itself in a path. -/
def IsPlainName (name : String) : Prop :=
  name ≠ "" ∧ name ≠ "." ∧ name ≠ ".." ∧ '/' ∉ name.toList

instance (name : String) : Decidable (IsPlainName name) :=
  inferInstanceAs (Decidable (_ ∧ _))

/-- The names that a path leads to from the working directory `cwd` where there are no links. -/
def placeOf (cwd : List String) (path : String) : List String :=
  foldNames (if Path.isAbsolute path then [] else cwd) (namesOf path)

/-- Whether a piece of a path is a name to follow. -/
def isStep (piece : String) : Bool :=
  !piece.isEmpty && piece ≠ "."

theorem namesOf_eq (path : String) : namesOf path = (Text.splitAt '/' path).filter isStep := by
  have hpieces : ∀ pieces : List String,
      (pieces.filter fun p => !p.isEmpty).filter (· ≠ ".") = pieces.filter isStep := fun pieces => by
    rw [List.filter_filter]
    refine List.filter_congr fun p _ => ?_
    rw [isStep, Bool.and_comm]
  unfold namesOf Path.components
  dsimp only
  split
  · rw [List.filter_append, hpieces]
    simp
  · exact hpieces _

theorem namesOf_append (a b : String) : namesOf (a ++ "/" ++ b) = namesOf a ++ namesOf b := by
  have hchars : (a ++ "/" ++ b).toList = a.toList ++ '/' :: b.toList := by simp
  rw [namesOf_eq, namesOf_eq, namesOf_eq, Text.splitAt, hchars, splitAt_append_sep,
    List.map_append, List.filter_append]
  rfl

theorem namesOf_of_isPlainName {name : String} (h : IsPlainName name) : namesOf name = [name] := by
  obtain ⟨hempty, hdot, -, hslash⟩ := h
  rw [namesOf_eq, Text.splitAt, splitAt_of_not_mem hslash, List.map_singleton, String.ofList_toList]
  refine List.filter_eq_self.mpr ?_
  simp [isStep, hempty, hdot]

theorem mem_namesOf {path name : String} (h : name ∈ namesOf path) :
    name ≠ "" ∧ name ≠ "." ∧ '/' ∉ name.toList ∧ name.toList ⊆ path.toList := by
  rw [namesOf_eq, List.mem_filter] at h
  obtain ⟨hpiece, hstep⟩ := h
  simp only [isStep, Bool.and_eq_true, Bool.not_eq_true', decide_eq_true_eq] at hstep
  exact ⟨by simpa using hstep.1, hstep.2, Text.not_mem_of_mem_splitAt hpiece,
    Text.subset_of_mem_splitAt hpiece⟩

/-- The names of an absolute path are followed one by one. -/
theorem components_absolutePath {names : List String}
    (h : ∀ name ∈ names, name ≠ "" ∧ '/' ∉ name.toList) :
    Path.components (absolutePath names) = names := by
  have hpieces : Text.splitAt '/' (absolutePath names) =
      "" :: if names = [] then [""] else names := by
    rw [absolutePath, Text.splitAt, String.toList_append]
    change ((Text.Chars.splitAt '/' ('/' :: _)).map _) = _
    rw [splitAt_cons, if_pos rfl, List.map_cons]
    refine congrArg _ ?_
    split
    · next hnames =>
      subst hnames
      rfl
    · next hnames => exact Text.splitAt_joinWith rfl hnames fun name hname => (h name hname).2
  unfold Path.components
  rw [hpieces]
  dsimp only
  split
  · next hnames =>
    subst hnames
    rfl
  · next hnames =>
    have hkept : ("" :: names).filter (fun p => !p.isEmpty) = names := by
      rw [List.filter_cons_of_neg (by simp)]
      exact List.filter_eq_self.mpr fun name hname => by simpa using (h name hname).1
    rw [hkept, if_neg]
    rw [List.getLast?_cons, List.getLast?_eq_some_getLast hnames]
    simpa using fun hlast => absurd hlast (h _ (List.getLast_mem hnames)).1

/-! ## Joined paths -/

theorem foldNames_append (here xs ys : List String) :
    foldNames here (xs ++ ys) = foldNames (foldNames here xs) ys := by
  induction xs generalizing here with
  | nil => rfl
  | cons x xs ih =>
    rw [List.cons_append, foldNames, foldNames]
    exact ih _

theorem isAbsolute_append {path : String} (h : path ≠ "") (rest : String) :
    Path.isAbsolute (path ++ rest) = Path.isAbsolute path := by
  obtain ⟨c, cs, hchars⟩ :=
    List.exists_cons_of_ne_nil fun hnil : path.toList = [] => h (String.toList_inj.mp hnil)
  rw [Path.isAbsolute, Path.isAbsolute, String.toList_append, hchars]
  rfl

theorem isAbsolute_join {base path : String} (hpath : Path.isAbsolute path = false) :
    Path.isAbsolute (Path.join base path) = Path.isAbsolute base := by
  unfold Path.join
  by_cases hbase : base = ""
  · have hempty : Path.isAbsolute "" = false := by decide
    subst hbase
    rw [if_pos (by simp), hpath, hempty]
  · rw [if_neg (by simp [hpath, hbase])]
    split
    · exact isAbsolute_append hbase _
    · rw [String.append_assoc]
      exact isAbsolute_append hbase _

theorem namesOf_join {base path : String} (hpath : Path.isAbsolute path = false) :
    namesOf (Path.join base path) = namesOf base ++ namesOf path := by
  unfold Path.join
  by_cases hbase : base = ""
  · subst hbase
    rw [if_pos (by simp)]
    rfl
  · rw [if_neg (by simp [hpath, hbase])]
    split
    · next hslash =>
      obtain ⟨front, hfront⟩ := List.getLast?_eq_some_iff.mp hslash
      have hsplit : base = String.ofList front ++ "/" := String.toList_inj.mp (by simp [hfront])
      have hempty : namesOf "" = [] := rfl
      have hlast : base = String.ofList front ++ "/" ++ "" := by rw [hsplit, String.append_empty]
      conv_rhs => rw [hlast, namesOf_append, hempty, List.append_nil]
      rw [hsplit, namesOf_append]
    · exact namesOf_append base path

/-- What a joined path means : an absolute path what it means alone, any other what its names lead
to from the base. -/
theorem placeOf_join (cwd : List String) (base path : String) :
    placeOf cwd (Path.join base path) =
      foldNames (if Path.isAbsolute path then [] else placeOf cwd base) (namesOf path) := by
  cases hpath : Path.isAbsolute path with
  | true =>
    have hjoin : Path.join base path = path := if_pos (by simp [hpath])
    rw [hjoin, placeOf, hpath]
    rfl
  | false =>
    rw [placeOf, isAbsolute_join hpath, namesOf_join hpath, foldNames_append]
    rfl

theorem isAbsolute_of_isPlainName {name : String} (h : IsPlainName name) :
    Path.isAbsolute name = false :=
  decide_eq_false fun hhead => h.2.2.2 (List.mem_of_mem_head? hhead)

/-- A plain name is put behind the base. -/
theorem placeOf_join_of_isPlainName (cwd : List String) (base : String) {name : String}
    (h : IsPlainName name) : placeOf cwd (Path.join base name) = placeOf cwd base ++ [name] := by
  rw [placeOf_join, isAbsolute_of_isPlainName h, namesOf_of_isPlainName h]
  simp [foldNames, h.2.2.1]

/-- The names that a path leads through from the root, if the working directory is `cwd`. -/
def namesFrom (cwd : List String) (path : String) : List String :=
  (if Path.isAbsolute path then [] else cwd) ++ namesOf path

theorem namesFrom_join_of_isPlainName (cwd : List String) (base : String) {name : String}
    (h : IsPlainName name) : namesFrom cwd (Path.join base name) = namesFrom cwd base ++ [name] := by
  have hname := isAbsolute_of_isPlainName h
  rw [namesFrom, isAbsolute_join hname, namesOf_join hname, namesOf_of_isPlainName h, namesFrom,
    List.append_assoc]

/-! ## Shortened paths -/

theorem namesOf_append_slash (path : String) : namesOf (path ++ "/") = namesOf path := by
  have hempty : namesOf "" = [] := rfl
  have h := namesOf_append path ""
  rwa [String.append_empty, hempty, List.append_nil] at h

theorem namesOf_append_slashes (n : Nat) (cs : List Char) :
    namesOf (String.ofList (cs ++ List.replicate n '/')) = namesOf (String.ofList cs) := by
  induction n with
  | zero => simp
  | succ n ih =>
    rw [List.replicate_succ', ← List.append_assoc, String.ofList_append]
    exact (namesOf_append_slash _).trans ih

theorem exists_eq_append_slashes (cs : List Char) : ∃ n,
    cs = (cs.reverse.dropWhile (· = '/')).reverse ++ List.replicate n '/' := by
  refine ⟨(cs.reverse.takeWhile (· = '/')).length, ?_⟩
  have hslashes := List.eq_replicate_of_mem fun c hc =>
    of_decide_eq_true (List.all_eq_true.mp (List.all_takeWhile (p := (· = '/'))
      (l := cs.reverse)) c hc)
  conv_lhs => rw [← List.reverse_reverse cs,
    ← List.takeWhile_append_dropWhile (p := (· = '/')) (l := cs.reverse),
    List.reverse_append, hslashes, List.reverse_replicate]

/-- Slashes at the end of a path change neither its start nor its names. -/
theorem isAbsolute_namesOf_dropSlashes (path : String) :
    Path.isAbsolute (Tree.dropSlashes path) = Path.isAbsolute path ∧
      namesOf (Tree.dropSlashes path) = namesOf path := by
  obtain ⟨n, hn⟩ := exists_eq_append_slashes path.toList
  unfold Tree.dropSlashes
  generalize (path.toList.reverse.dropWhile (· = '/')).reverse = kept at hn ⊢
  obtain rfl : path = String.ofList (kept ++ List.replicate n '/') :=
    String.toList_inj.mp (by rw [hn, String.toList_ofList])
  cases kept with
  | nil =>
    cases n with
    | zero => exact ⟨rfl, rfl⟩
    | succ n =>
      refine ⟨by simp [Path.isAbsolute, List.replicate_succ], ?_⟩
      rw [namesOf_append_slashes, if_pos (by simp)]
      rfl
  | cons c cs => exact ⟨by simp [Path.isAbsolute], (namesOf_append_slashes n _).symm⟩

/-- A path that starts at the root has an empty piece in front. -/
theorem isAbsolute_iff {path : String} : Path.isAbsolute path = true ↔
    ∃ piece pieces, Text.splitAt '/' path = "" :: piece :: pieces := by
  rw [Path.isAbsolute, decide_eq_true_iff, Text.splitAt]
  cases path.toList with
  | nil => simp [Text.Chars.splitAt]
  | cons c cs =>
    obtain ⟨piece, pieces, hpieces⟩ :=
      List.exists_cons_of_ne_nil (Text.Chars.splitAt_ne_nil '/' cs)
    rw [Text.Chars.splitAt_cons, hpieces]
    by_cases hc : c = '/'
    · simp [hc]
    · simp [hc, ← String.toList_inj]

theorem isStep_of_not_isIdle {piece : String} (h : Path.isIdle false piece = false) :
    isStep piece = true := by
  simpa [Path.isIdle, isStep] using h

theorem dropIdle_eq (pieces : List String) :
    ∃ idle, pieces = idle ++ Path.dropIdle pieces ∧ ∀ piece ∈ idle, isStep piece = false := by
  induction pieces with
  | nil => exact ⟨[], rfl, nofun⟩
  | cons piece rest ih =>
    rw [Path.dropIdle]
    split
    · next hidle =>
      obtain ⟨idle, hrest, hsteps⟩ := ih
      refine ⟨piece :: idle, by rw [List.cons_append, ← hrest],
        List.forall_mem_cons.mpr ⟨?_, hsteps⟩⟩
      simp only [Path.isIdle, Bool.or_eq_true, Bool.and_eq_true] at hidle
      rcases hidle with h | h <;> simp [isStep, h]
    · exact ⟨[], rfl, nofun⟩

theorem dropIdle_eq_cons {pieces rest : List String} {piece : String}
    (h : Path.dropIdle pieces = piece :: rest) :
    Path.isIdle rest.isEmpty piece = false := by
  induction pieces with
  | nil => cases h
  | cons p ps ih =>
    rw [Path.dropIdle] at h
    split at h
    · exact ih h
    · next hidle =>
      cases h
      simpa using hidle

theorem filter_isStep_append {idle pieces : List String}
    (hidle : ∀ piece ∈ idle, isStep piece = false) :
    (idle ++ pieces).filter isStep = pieces.filter isStep := by
  rw [List.filter_append, List.filter_eq_nil_iff.mpr (by simpa using hidle), List.nil_append]

/-- The first pieces of a path, if they do not end in an empty one, are a path that starts where the
path does. -/
theorem isAbsolute_namesOf_joinWith {path last : String} {front behind : List String}
    (hsplit : Text.splitAt '/' path = front ++ [last] ++ behind) (hlast : last ≠ "") :
    Path.isAbsolute (Text.joinWith "/" (front ++ [last])) = Path.isAbsolute path ∧
      namesOf (Text.joinWith "/" (front ++ [last])) = (front ++ [last]).filter isStep := by
  have hslash : ∀ p ∈ front ++ [last], '/' ∉ p.toList := fun p hp =>
    Text.not_mem_of_mem_splitAt (s := path) (by rw [hsplit]; exact List.mem_append_left _ hp)
  have hpieces := Text.splitAt_joinWith (show "/".toList = ['/'] from rfl) (by simp) hslash
  refine ⟨?_, by rw [namesOf_eq, hpieces]⟩
  rw [Bool.eq_iff_iff, isAbsolute_iff, isAbsolute_iff, hpieces, hsplit]
  cases front with
  | nil => simp [hlast]
  | cons p ps => cases ps <;> simp

/-- The parent of a path starts where the path does and has its names but the last. -/
theorem parent?_eq_some {path parent : String} (h : Path.parent? path = some parent) :
    Path.isAbsolute parent = Path.isAbsolute path ∧ namesOf parent = (namesOf path).dropLast := by
  unfold Path.parent? at h
  obtain ⟨idle, hpieces, hidle⟩ := dropIdle_eq (Text.splitAt '/' path).reverse
  dsimp only at h
  split at h
  · cases h
  next name rest hname =>
  cases h
  have hlast := dropIdle_eq_cons hname
  obtain ⟨idle', hrest, hidle'⟩ := dropIdle_eq rest
  have hkept : ∀ k ks, Path.dropIdle rest = k :: ks → k ≠ "" := fun k ks hk => by
    have hk := dropIdle_eq_cons hk
    rintro rfl
    simp [Path.isIdle] at hk
  generalize Path.dropIdle rest = kept at hrest hkept ⊢
  have hsplit : Text.splitAt '/' path = kept.reverse ++ (idle'.reverse ++ name :: idle.reverse) := by
    rw [← List.reverse_reverse (Text.splitAt '/' path), hpieces, hname, hrest]
    simp
  have hnames : namesOf path = kept.reverse.filter isStep ++ [name].filter isStep := by
    have hbehind : idle.reverse.filter isStep = [] :=
      List.filter_eq_nil_iff.mpr (by simpa using hidle)
    rw [namesOf_eq, hsplit, List.filter_append, filter_isStep_append (by simpa using hidle'),
      List.filter_cons, hbehind, List.filter_cons, List.filter_nil]
  cases kept with
  | nil =>
    refine ⟨?_, ?_⟩
    · cases habs : Path.isAbsolute path <;> rfl
    · have hfront : namesOf (if Path.isAbsolute path then "/" else "") = [] := by split <;> rfl
      rw [hnames]
      refine hfront.trans ?_
      rw [List.reverse_nil, List.filter_nil, List.nil_append, List.filter_cons]
      split <;> rfl
  | cons k ks =>
    have hstep : isStep name = true := isStep_of_not_isIdle (by
      rwa [hrest, List.isEmpty_eq_false_iff.mpr (by simp)] at hlast)
    rw [List.reverse_cons] at hsplit hnames
    obtain ⟨habs, hparent⟩ := isAbsolute_namesOf_joinWith hsplit (hkept k ks rfl)
    rw [hnames, List.filter_cons_of_pos hstep, List.filter_nil, List.dropLast_concat, ← hparent,
      ← habs, ← List.reverse_cons]
    exact ⟨rfl, rfl⟩

/-! ## Files of scripts -/

theorem toList_fileName (s : MachineScript) :
    s.fileName.toList = s.machine.toList ++ '.' :: (s.mode.word.toList ++ ".sh".toList) := by
  have hname : s.fileName = s.machine ++ "." ++ s.mode.word ++ ".sh" := rfl
  simp [hname]

theorem notMem_of_isLabel {label : String} (h : isLabel label = true) {c : Char}
    (hc : isLabelChar c = false) : c ∉ label.toList := by
  intro hmem
  simp only [isLabel, Bool.and_eq_true, List.all_eq_true] at h
  cases hc.symm.trans (h.1.2 c hmem)

theorem isPlainName_fileName {s : MachineScript} (h : isLabel s.machine = true) :
    IsPlainName s.fileName := by
  have hslash : '/' ∉ s.fileName.toList := by
    rw [toList_fileName, List.mem_append, List.mem_cons, List.mem_append, not_or, not_or, not_or]
    refine ⟨notMem_of_isLabel h (by decide), by decide, ?_, by decide⟩
    cases s.mode <;> decide
  have hlong : 3 ≤ s.fileName.toList.length := by
    rw [toList_fileName]
    simp only [List.length_append, List.length_cons]
    have : ".sh".toList.length = 3 := by decide
    omega
  refine ⟨?_, ?_, ?_, hslash⟩
  all_goals
    intro heq
    rw [heq] at hlong
    revert hlong
    decide

/-- The machine and the mode of a script are read off the name of its file. -/
theorem fileName_inj {s s' : MachineScript} (h : isLabel s.machine = true)
    (h' : isLabel s'.machine = true) :
    s.fileName = s'.fileName ↔ s.machine = s'.machine ∧ s.mode = s'.mode := by
  refine ⟨fun heq => ?_, fun ⟨hmachine, hmode⟩ => by
    rw [MachineScript.fileName, MachineScript.fileName, hmachine, hmode]⟩
  have hchars := congrArg (Text.Chars.cutAt? '.' ∘ String.toList) heq
  simp only [Function.comp_apply, toList_fileName] at hchars
  rw [Text.Chars.cutAt?_append_cons (notMem_of_isLabel h (by decide)),
    Text.Chars.cutAt?_append_cons (notMem_of_isLabel h' (by decide))] at hchars
  obtain ⟨hmachine, hrest⟩ := Prod.mk.inj (Option.some.inj hchars)
  refine ⟨String.toList_inj.mp hmachine, ?_⟩
  have hword := String.toList_inj.mp (List.append_cancel_right hrest)
  revert hword
  cases s.mode <;> cases s'.mode <;> decide

end CommandLine

end NetworkCompiler
