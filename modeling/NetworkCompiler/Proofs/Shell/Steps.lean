import NetworkCompiler.Proofs.Shell.Documents
import NetworkCompiler.Shell.Interpreter

/-!
# Steps of a run

What a shell does when nothing leaves the course of statements : the parts of a run follow each
other (`run_bind_of_ok`), a quoted text stands for itself (`run_fieldsOf_quotedWord`,
`run_textOf_quotedWord`), a simple command is its words, its redirections and what its name stands
for (`run_command`), and a script of one statement is that statement (`run_script`). `cat` copies
what is read to what is written (`run_cat`).
-/

namespace NetworkCompiler.Shell

open Run

/-! ## Parts of a run -/

section Steps

variable {α β : Type} {x : Run α} {f : α → Run β} {a : α} {p q r : Process}

/-- What follows an action starts where the action ended. -/
theorem run_bind_of_ok (h : x.run p = (.ok a, q)) : (x >>= f).run p = (f a).run q := by
  have h' : x p = (.ok a, q) := h
  simp only [bind, ExceptT.run, ExceptT.bind, ExceptT.mk, StateT.bind, h', ExceptT.bindCont]

theorem run_get : (get : Run Process).run p = (.ok p, p) := rfl

theorem run_tryCatch_of_ok {handle : Flow → Run α} (h : x.run p = (.ok a, q)) :
    (tryCatch x handle).run p = (.ok a, q) := by
  have h' : x p = (.ok a, q) := h
  simp only [tryCatch, tryCatchThe, MonadExceptOf.tryCatch, ExceptT.tryCatch, ExceptT.run,
    ExceptT.mk, bind, StateT.bind, h']
  rfl

theorem run_always {cleanup : Run Unit} (h : x.run p = (.ok a, q))
    (hcleanup : cleanup.run q = (.ok (), r)) : (always cleanup x).run p = (.ok a, r) := by
  rw [always, run_bind_of_ok (run_tryCatch_of_ok h), run_bind_of_ok hcleanup]
  rfl

theorem run_withRedirections {capture : String → Run String} {rs : List Redirection}
    (hrs : (rs.forM (redirect capture)).run p = (.ok (), q)) (h : x.run q = (.ok a, r)) :
    (withRedirections capture rs x).run p = (.ok a, { r with channels := p.channels }) := by
  rw [withRedirections, run_bind_of_ok run_get]
  refine run_always ?_ rfl
  rw [run_bind_of_ok hrs, h]

end Steps

/-! ## Words -/

section Words

variable {capture : String → Run String} {quoted : Bool} {p : Process}

theorem run_piecesOf_quoted (pieces : List (List Char)) :
    (piecesOf capture quoted (pieces.map fun piece => .quoted (String.ofList piece))).run p =
      (.ok (pieces.map fun piece => .fixed (String.ofList piece)), p) := by
  induction pieces with
  | nil => rw [List.map_nil, piecesOf]; rfl
  | cons piece pieces ih =>
    have hpart : (piecesOfPart capture quoted (.quoted (String.ofList piece))).run p =
        (.ok [.fixed (String.ofList piece)], p) := by
      rw [piecesOfPart]
      rfl
    rw [List.map_cons, piecesOf, run_bind_of_ok hpart, run_bind_of_ok ih]
    rfl

theorem join_map_fixed (pieces : List (List Char)) :
    Piece.join (pieces.map fun piece => .fixed (String.ofList piece)) =
      String.ofList pieces.flatten := by
  induction pieces with
  | nil => rfl
  | cons piece pieces ih =>
    rw [Piece.join] at ih ⊢
    rw [List.flatten_cons, String.ofList_append, ← ih]
    simp [String.join_cons]

/-- What a fold over pieces does with each of them. -/
def addPiece (separators : List Char) (f : Piece.Splitting) : Piece → Piece.Splitting
  | .fixed s => f.put s
  | .text s => if s.isEmpty then f else f.put s
  | .loose s => s.toList.foldl (Piece.Splitting.step separators) f
  | .cut always => { f.finish always with spaced := false }

theorem fields_eq_foldl (separators : List Char) (ps : List Piece) :
    Piece.fields separators ps =
      ((ps.foldl (addPiece separators) {}).finish false).ended.reverse := rfl

theorem foldl_addPiece_fixed (separators : List Char) (pieces : List (List Char)) (s : String) :
    (pieces.map fun piece => Piece.fixed (String.ofList piece)).foldl (addPiece separators)
        ⟨[], some s, false⟩ = ⟨[], some (s ++ String.ofList pieces.flatten), false⟩ := by
  induction pieces generalizing s with
  | nil => simp
  | cons piece pieces ih =>
    rw [List.map_cons, List.foldl_cons, List.flatten_cons, String.ofList_append,
      ← String.append_assoc]
    exact ih _

theorem fields_map_fixed (separators : List Char) {pieces : List (List Char)} (hne : pieces ≠ []) :
    Piece.fields separators (pieces.map fun piece => .fixed (String.ofList piece)) =
      [String.ofList pieces.flatten] := by
  cases pieces with
  | nil => exact absurd rfl hne
  | cons piece pieces =>
    have hfirst : addPiece separators {} (.fixed (String.ofList piece)) =
        ⟨[], some ("" ++ String.ofList piece), false⟩ := rfl
    rw [fields_eq_foldl, List.map_cons, List.foldl_cons, hfirst, foldl_addPiece_fixed,
      String.empty_append, List.flatten_cons, String.ofList_append]
    rfl

/-- A quoted text stands for itself where nothing is split. -/
theorem run_textOf_quotedWord (cs : List Char) :
    (textOf capture (quotedWord cs)).run p = (.ok (String.ofList cs), p) := by
  rw [textOf, quotedWord, run_bind_of_ok (run_piecesOf_quoted _), join_map_fixed,
    flatten_quotedPieces]
  rfl

theorem run_fieldsOf_cons {w : Word} {ws : List Word} {ps : List Piece} {field : String}
    {fields : List String}
    (hw : (piecesOf capture false w).run p = (.ok ps, p))
    (hfield : ∀ separators, Piece.fields separators ps = [field])
    (hws : (fieldsOf capture ws).run p = (.ok fields, p)) :
    (fieldsOf capture (w :: ws)).run p = (.ok (field :: fields), p) := by
  have hseparators : separators.run p =
      (.ok (((Dictionary.get? "IFS" p.bindings).getD " \t\n").toList), p) := rfl
  rw [fieldsOf, run_bind_of_ok hw, run_bind_of_ok hseparators, run_bind_of_ok hws, hfield]
  rfl

theorem run_fieldsOf_text {s : String} (hs : s.isEmpty = false) {ws : List Word}
    {fields : List String}
    (hws : (fieldsOf capture ws).run p = (.ok fields, p)) :
    (fieldsOf capture ([.text s] :: ws)).run p = (.ok (s :: fields), p) := by
  have hpieces : (piecesOf capture false [.text s]).run p = (.ok [.text s], p) := by
    rw [piecesOf, piecesOf, piecesOfPart]
    rfl
  refine run_fieldsOf_cons hpieces (fun separators => ?_) hws
  simp [fields_eq_foldl, addPiece, hs, Piece.Splitting.put, Piece.Splitting.finish]

theorem run_fieldsOf_quotedWord (cs : List Char) {ws : List Word} {fields : List String}
    (hws : (fieldsOf capture ws).run p = (.ok fields, p)) :
    (fieldsOf capture (quotedWord cs :: ws)).run p = (.ok (String.ofList cs :: fields), p) := by
  refine run_fieldsOf_cons (run_piecesOf_quoted _) (fun separators => ?_) hws
  rw [fields_map_fixed separators (quotedPieces_ne_nil cs), flatten_quotedPieces]

end Words

/-! ## Commands -/

section Commands

variable {fuel : Nat} {tested : Bool} {p q r : Process} {words : List Word} {rs : List Redirection}
  {name : String} {arguments : List String}

/-- A simple command that is found by its name works with its channels redirected, and they are
brought back behind it. -/
theorem run_command (hname : Builtin.isSpecial name = false)
    (hwords : (fieldsOf (capture fuel) words).run { p with captured := none } =
      (.ok (name :: arguments), { p with captured := none }))
    (hrs : (rs.forM (redirect (capture fuel))).run { p with captured := none } = (.ok (), q))
    (h : (invoke fuel tested true name arguments).run q = (.ok (), r)) :
    (command (fuel + 1) tested [] words rs).run p =
      (.ok (), { r with channels := p.channels }) := by
  have hcaptured : (modify fun p => { p with captured := none } : Run Unit).run p =
      (.ok (), { p with captured := none }) := rfl
  have hexec : name ≠ "exec" := by
    rintro rfl
    revert hname
    decide
  rw [command, run_bind_of_ok hcaptured, run_bind_of_ok hwords]
  split
  · next heq => exact absurd heq (List.cons_ne_nil _ _)
  · next heq => exact absurd (List.cons.inj heq).1 hexec
  · next heq =>
    obtain ⟨rfl, rfl⟩ := List.cons.inj heq
    have hbefore : (([] : List (String × Word)).mapM fun x => do
        return (x.1, ← valueOf? x.1) : Run (List (String × Option String))).run
          { p with captured := none } = (.ok [], { p with captured := none }) := rfl
    rw [run_bind_of_ok hbefore, hname, if_neg Bool.false_ne_true]
    have hassign : (([] : List (String × Word)).forM fun x => do
        assign x.1 (← textOf (capture fuel) x.2)).run q = (.ok (), q) := rfl
    exact run_always (run_tryCatch_of_ok (run_withRedirections hrs
      ((run_bind_of_ok hassign).trans h))) rfl

/-- A simple statement is its command, unless the shell ends on a failure that nothing asks for. -/
theorem run_simple (h : (command fuel tested [] words rs).run p = (.ok (), q))
    (hstatus : tested = true ∨ q.status = 0) :
    (run (fuel + 1) tested (.simple [] words rs)).run p = (.ok (), q) := by
  rw [run, run_bind_of_ok h, checkFailure, run_bind_of_ok run_get, if_neg]
  · rfl
  · rcases hstatus with rfl | hstatus
    · simp
    · simp [hstatus]

theorem run_both {l s : Statement} (hl : (run fuel true l).run p = (.ok (), q))
    (hstatus : q.status = 0) (hs : (run fuel tested s).run q = (.ok (), r)) :
    (run (fuel + 1) tested (.both l s)).run p = (.ok (), r) := by
  rw [run, run_bind_of_ok hl, run_bind_of_ok run_get, if_pos hstatus, hs]

/-- A shell reads a text as one statement, behind which nothing is left. -/
def IsReadAs (text : String) (s : Statement) : Prop :=
  ∃ rest, readLine? ⟨(tokens text).1, (tokens text).2⟩ = some (some (s, rest)) ∧
    readLine? rest = some none

/-- A script of one statement is that statement. -/
theorem run_script {text : String} {s : Statement} (htext : IsReadAs text s)
    (h : (run (fuel + 1) tested s).run p = (.ok (), q)) :
    (script (fuel + 3) tested text).run p = (.ok (), q) := by
  obtain ⟨rest, hline, hend⟩ := htext
  have hrest : (linesFrom (fuel + 1) tested rest).run q = (.ok (), q) := by
    rw [linesFrom, hend]
    rfl
  have hscript : script (fuel + 3) tested text =
      linesFrom (fuel + 2) tested ⟨(tokens text).1, (tokens text).2⟩ := by
    rw [script]
  rw [hscript, linesFrom, hline]
  exact (run_bind_of_ok h).trans hrest

end Commands

/-! ## Files -/

section Files

variable {fuel : Nat} {tested : Bool} {p : Process} {target path : String}

theorem run_channel? (n : Nat) : (channel? n).run p = (.ok (p.channels.lookup n), p) := rfl

theorem run_unread? {n i : Nat} (hchannel : p.channels.lookup n = some (.source i)) :
    (unread? n).run p = (.ok (some (p.sources[i]?.getD "")), p) := by
  rw [unread?, run_bind_of_ok (run_channel? n), hchannel]
  rfl

theorem run_setUnread {n i : Nat} (hchannel : p.channels.lookup n = some (.source i))
    (rest : String) :
    (setUnread n rest).run p =
      (.ok (), { p with sources := p.sources.modify i fun _ => rest }) := by
  rw [setUnread, run_bind_of_ok (run_channel? n), hchannel]
  rfl

theorem run_writeTo {n : Nat} (hchannel : p.channels.lookup n = some (.file target))
    (text : String) :
    (writeTo n text).run p = (.ok true, { p with
      files := Dictionary.insert target ((Dictionary.get? target p.files).getD "" ++ text)
        p.files }) := by
  rw [writeTo, run_bind_of_ok (run_channel? n), hchannel]
  rfl

theorem run_fault_bind {α β : Type} (f : α → Run β) :
    (fault >>= f).run p = (.error (.fault false), p) := rfl

/-- A file that is opened to be written is empty at first. -/
theorem run_openToWrite (h : ((openToWrite false path).run p).1 = .ok (.file target)) :
    (openToWrite false path).run p =
      (.ok (.file target), { p with files := Dictionary.insert target "" p.files }) := by
  obtain ⟨name, hname⟩ : ∃ name, (absolute path).run p = (.ok name, p) := ⟨_, rfl⟩
  rw [openToWrite, run_bind_of_ok hname] at h ⊢
  by_cases hnull : name = "/dev/null"
  · rw [if_pos hnull] at h
    cases h
  rw [if_neg hnull] at h ⊢
  by_cases hdirectory : name ∈ directories
  · rw [if_pos hdirectory, run_fault_bind] at h
    cases h
  rw [if_neg hdirectory, run_bind_of_ok run_get] at h ⊢
  dsimp only at h ⊢
  generalize (!(_ || _)) = hidden at h ⊢
  cases hidden with
  | true =>
    rw [if_pos rfl, run_fault_bind] at h
    cases h
  | false =>
    cases h
    rfl

theorem run_output (houtput : p.channels.lookup 1 = some (.file target)) (text : String) :
    (Builtin.output text).run p = (.ok 0, { p with
      files := Dictionary.insert target ((Dictionary.get? target p.files).getD "" ++ text)
        p.files }) := by
  rw [Builtin.output, run_bind_of_ok (run_writeTo houtput text)]
  rfl

/-- `cat` copies what is read to what is written. -/
theorem run_cat {n : Nat} (hlookup : p.functions.lookup "cat" = none)
    (hinput : p.channels.lookup 0 = some (.source n))
    (houtput : p.channels.lookup 1 = some (.file target)) :
    (invoke (fuel + 1) tested true "cat" []).run p =
      (.ok (), { p with
        sources := p.sources.modify n fun _ => ""
        files := Dictionary.insert target
          ((Dictionary.get? target p.files).getD "" ++ p.sources[n]?.getD "") p.files
        status := 0 }) := by
  have hinvoke : (invoke (fuel + 1) tested true "cat" []).run p =
      (Builtin.copy [] >>= setStatus).run p := by
    rw [invoke, run_bind_of_ok run_get, hlookup]
    · rfl
    all_goals decide
  have htake : (do
      let s ← unread? 0
      setUnread 0 ""
      pure s : Run (Option String)).run p =
        (.ok (some (p.sources[n]?.getD "")),
          { p with sources := p.sources.modify n fun _ => "" }) := by
    rw [run_bind_of_ok (run_unread? hinput), run_bind_of_ok (run_setUnread hinput "")]
    rfl
  have hcopy : (Builtin.copy []).run p = (.ok 0, { p with
      sources := p.sources.modify n fun _ => ""
      files := Dictionary.insert target
        ((Dictionary.get? target p.files).getD "" ++ p.sources[n]?.getD "") p.files }) := by
    rw [Builtin.copy, run_bind_of_ok htake]
    exact run_output (p := { p with sources := p.sources.modify n fun _ => "" }) houtput _
  rw [hinvoke, run_bind_of_ok hcopy]
  rfl

theorem run_redirect_write {capture : String → Run String} {w : Word} (n : Nat)
    (hw : (textOf capture w).run p = (.ok path, p))
    (hopen : ((openToWrite false path).run p).1 = .ok (.file target)) :
    (redirect capture ⟨n, .write, w⟩).run p = (.ok (), { p with
      files := Dictionary.insert target "" p.files
      channels := (n, .file target) :: p.channels.filter (·.1 ≠ n) }) := by
  rw [redirect]
  exact (run_bind_of_ok hw).trans (run_bind_of_ok (run_openToWrite hopen))

theorem run_redirect_document (capture : String → Run String) (n : Nat) (p : Process)
    (text : String) :
    (redirect capture ⟨n, .document, [.quoted text]⟩).run p = (.ok (), { p with
      sources := p.sources.push text
      channels := (n, .source p.sources.size) :: p.channels.filter (·.1 ≠ n) }) := by
  have hpieces : (piecesOf capture true [.quoted text]).run p = (.ok [.fixed text], p) := by
    rw [piecesOf, piecesOf, piecesOfPart]
    rfl
  have hjoin : Piece.join [.fixed text] = text := by simp [Piece.join]
  rw [redirect]
  refine (run_bind_of_ok hpieces).trans ?_
  rw [hjoin]
  rfl

end Files

end NetworkCompiler.Shell
