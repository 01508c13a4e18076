import Mathlib.Data.List.TakeWhile
import Mathlib.Tactic.Common
import NetworkCompiler.Json.Comments
import NetworkCompiler.Proofs.Json.Tokens

/-!
# Comments

A text of JSON with comments is read as a row of segments : characters of code, string literals,
line comments and block comments. `Scan` says which segments a text has, and there is one way to
read it (`Scan.unique`). Every text is read to its end, or to a block comment that is never closed
(`exists_scan`).

Stripping a text keeps its code, its literals and the line feeds of its comments
(`stripFrom_of_scan`). More generally `fill` writes something in the place of every other character
of a comment, and blanks there make a text of the same code and literals (`Scan.filled`).
-/

namespace NetworkCompiler.Json

/-! ## Literals -/

theorem stripFrom_literal (escaped : Bool) (cs : List Char) :
    stripFrom (if escaped then .escaped else .literal) cs =
      (stripFrom .code (literalSpan escaped cs).2).map ((literalSpan escaped cs).1 ++ ·) := by
  induction cs generalizing escaped with
  | nil => cases escaped <;> rfl
  | cons c cs ih =>
    have hliteral := ih false
    have hescaped := ih true
    simp only [Bool.false_eq_true, if_false, if_true] at hliteral hescaped
    cases escaped with
    | true =>
      simp [stripFrom, literalSpan, hliteral, Option.map_map, Function.comp_def]
    | false =>
      by_cases hquote : c = '"'
      · simp [stripFrom, literalSpan, hquote]
      · by_cases hslash : c = '\\' <;>
          simp [stripFrom, literalSpan, hquote, hslash, hliteral, hescaped, Option.map_map,
            Function.comp_def]

/-! ## Segments -/

/-- A piece of a text. -/
inductive Segment where
  /-- A character outside of literals and comments. -/
  | code (c : Char)
  /-- A literal, from behind its opening quote on. -/
  | literal (s : List Char)
  /-- A comment from behind its two slashes to the end of the line. -/
  | lineComment (s : List Char)
  /-- A comment between its marks. -/
  | blockComment (s : List Char)

/-- The characters of a segment, each with whether it is kept : of a comment only line feeds. -/
def Segment.marks : Segment → List (Char × Bool)
  | code c => [(c, true)]
  | literal s => ('"' :: s).map fun c => (c, true)
  | lineComment s => ('/' :: '/' :: s).map fun c => (c, c = '\n')
  | blockComment s => ('/' :: '*' :: (s ++ ['*', '/'])).map fun c => (c, c = '\n')

/-- Whether a text begins with the mark of a comment. -/
def opensComment : List Char → Bool
  | '/' :: c :: _ => c = '/' || c = '*'
  | _ => false

/-- The mark that ends a block comment. -/
def blockEnd : List Char := ['*', '/']

/-- A text is read as segments, up to where `rest` begins. -/
inductive Scan (rest : List Char) : List Char → List Segment → Prop where
  | done : Scan rest rest []
  | code {c : Char} {cs : List Char} {gs : List Segment} : c ≠ '"' →
      opensComment (c :: cs) = false → Scan rest cs gs → Scan rest (c :: cs) (.code c :: gs)
  | literal {cs : List Char} {gs : List Segment} : Scan rest (literalSpan false cs).2 gs →
      Scan rest ('"' :: cs) (.literal (literalSpan false cs).1 :: gs)
  | lineComment {s cs : List Char} {gs : List Segment} : '\n' ∉ s → (∀ c ∈ cs.head?, c = '\n') →
      Scan rest cs gs → Scan rest ('/' :: '/' :: (s ++ cs)) (.lineComment s :: gs)
  | blockComment {s cs : List Char} {gs : List Segment} : ¬blockEnd <:+: s → Scan rest cs gs →
      Scan rest ('/' :: '*' :: (s ++ blockEnd ++ cs)) (.blockComment s :: gs)

/-! ## Ends of comments -/

theorem blockEnd_infix_cons {c : Char} {s : List Char} :
    blockEnd <:+: c :: s ↔ (c = '*' ∧ s.head? = some '/') ∨ blockEnd <:+: s := by
  rw [List.infix_cons_iff, blockEnd, List.cons_prefix_cons]
  refine or_congr (and_congr eq_comm ?_) Iff.rfl
  cases s <;> simp [eq_comm]

/-- A block comment is never closed, or it is up to the first mark that ends it. -/
theorem exists_blockEnd (s : List Char) :
    ¬blockEnd <:+: s ∨ ∃ body cs, s = body ++ blockEnd ++ cs ∧ ¬blockEnd <:+: body := by
  induction s with
  | nil => exact .inl (by decide)
  | cons c s ih =>
    by_cases hhere : c = '*' ∧ s.head? = some '/'
    · obtain ⟨rfl, hhead⟩ := hhere
      obtain ⟨cs, rfl⟩ := List.head?_eq_some_iff.mp hhead
      exact .inr ⟨[], cs, rfl, by decide⟩
    rcases ih with hnone | ⟨body, cs, rfl, hbody⟩
    · exact .inl (mt blockEnd_infix_cons.mp (not_or.mpr ⟨hhere, hnone⟩))
    · refine .inr ⟨c :: body, cs, rfl, fun h => ?_⟩
      rcases blockEnd_infix_cons.mp h with ⟨rfl, hhead⟩ | h
      · obtain ⟨body, rfl⟩ := List.head?_eq_some_iff.mp hhead
        exact hhere ⟨rfl, rfl⟩
      · exact hbody h

theorem eq_nil_of_blockEnd_append {a cs cs' : List Char} (ha : ¬blockEnd <:+: a)
    (h : blockEnd ++ cs = a ++ (blockEnd ++ cs')) : a = [] := by
  match a with
  | [] => rfl
  | [c] => simp [blockEnd] at h
  | c :: d :: a =>
    simp only [blockEnd, List.cons_append, List.cons.injEq] at h
    obtain ⟨rfl, rfl, -⟩ := h
    exact absurd ⟨[], a, rfl⟩ ha

theorem exists_line (s : List Char) :
    ∃ line cs, s = line ++ cs ∧ '\n' ∉ line ∧ ∀ c ∈ cs.head?, c = '\n' := by
  refine ⟨s.takeWhile (· ≠ '\n'), s.dropWhile (· ≠ '\n'), ?_, fun hmem => ?_, fun c hc => ?_⟩
  · rw [List.takeWhile_append_dropWhile]
  · simpa using List.mem_takeWhile_imp hmem
  · have hhead := List.head?_dropWhile_not (· ≠ '\n') s
    rw [Option.mem_def.mp hc] at hhead
    simpa using hhead

theorem blockEnd_unique {s s' cs cs' : List Char} (hs : ¬blockEnd <:+: s)
    (hs' : ¬blockEnd <:+: s') (h : s ++ blockEnd ++ cs = s' ++ blockEnd ++ cs') :
    s = s' ∧ cs = cs' := by
  rw [List.append_assoc, List.append_assoc, List.append_eq_append_iff] at h
  rcases h with ⟨a, rfl, h⟩ | ⟨a, rfl, h⟩
  · obtain rfl := eq_nil_of_blockEnd_append (mt List.infix_append_of_infix_right hs') h
    simpa using h
  · obtain rfl := eq_nil_of_blockEnd_append (mt List.infix_append_of_infix_right hs) h
    simpa [eq_comm] using h

theorem eq_nil_of_line_append {a cs cs' : List Char} (ha : '\n' ∉ a)
    (hcs : ∀ c ∈ cs.head?, c = '\n') (h : cs = a ++ cs') : a = [] := by
  cases a with
  | nil => rfl
  | cons c a => exact absurd (hcs c (h ▸ rfl) ▸ List.mem_cons_self) ha

theorem line_unique {s s' cs cs' : List Char} (hs : '\n' ∉ s) (hs' : '\n' ∉ s')
    (hcs : ∀ c ∈ cs.head?, c = '\n') (hcs' : ∀ c ∈ cs'.head?, c = '\n')
    (h : s ++ cs = s' ++ cs') : s = s' ∧ cs = cs' := by
  rw [List.append_eq_append_iff] at h
  rcases h with ⟨a, rfl, h⟩ | ⟨a, rfl, h⟩
  · obtain rfl := eq_nil_of_line_append (mt (List.mem_append_right s) hs') hcs h
    simpa using h
  · obtain rfl := eq_nil_of_line_append (mt (List.mem_append_right s') hs) hcs' h
    simpa [eq_comm] using h

/-! ## Every text is read, in one way -/

/-- A text that is read to its end, or to a block comment that is never closed. -/
def Readable (cs : List Char) : Prop :=
  (∃ gs, Scan [] cs gs) ∨ ∃ gs s, Scan ('/' :: '*' :: s) cs gs ∧ ¬blockEnd <:+: s

theorem Readable.cons {cs cs' : List Char} {g : Segment}
    (hg : ∀ {rest gs}, Scan rest cs gs → Scan rest cs' (g :: gs)) : Readable cs → Readable cs'
  | .inl ⟨gs, h⟩ => .inl ⟨g :: gs, hg h⟩
  | .inr ⟨gs, s, h, hs⟩ => .inr ⟨g :: gs, s, hg h, hs⟩

theorem exists_scan (cs : List Char) : Readable cs := by
  induction hn : cs.length using Nat.strongRecOn generalizing cs with
  | ind n ih =>
  have ih : ∀ ds : List Char, ds.length < cs.length → Readable ds :=
    fun ds hlt => ih _ (hn ▸ hlt) ds rfl
  match cs with
  | [] => exact .inl ⟨[], .done⟩
  | c :: cs =>
    by_cases hquote : c = '"'
    · subst hquote
      refine (ih (literalSpan false cs).2 ?_).cons .literal
      have hlength := congrArg List.length (append_literalSpan false cs)
      simp at hlength ⊢
      omega
    cases hopens : opensComment (c :: cs) with
    | false => exact (ih cs (by simp)).cons (.code hquote hopens)
    | true =>
      obtain ⟨c', cs, rfl, rfl, hc'⟩ :
          ∃ c' cs', c = '/' ∧ cs = c' :: cs' ∧ (c' = '/' ∨ c' = '*') := by
        unfold opensComment at hopens
        split at hopens
        · next heq =>
          cases heq
          exact ⟨_, _, rfl, rfl, by simpa using hopens⟩
        · cases hopens
      rcases hc' with rfl | rfl
      · obtain ⟨line, cs, rfl, hline, hhead⟩ := exists_line cs
        exact (ih cs (by simp; omega)).cons (.lineComment hline hhead)
      · rcases exists_blockEnd cs with hnone | ⟨body, cs, rfl, hbody⟩
        · exact .inr ⟨[], cs, .done, hnone⟩
        · exact (ih cs (by simp [blockEnd]; omega)).cons (.blockComment hbody)

namespace Scan

/-- The first characters of a text tell the kind of its first segment. -/
theorem unique {cs : List Char} {gs gs' : List Segment} (h : Scan [] cs gs)
    (h' : Scan [] cs gs') : gs = gs' := by
  induction h generalizing gs' with
  | done =>
    cases h'
    rfl
  | code hquote hopens _ ih =>
    generalize hx : _ :: _ = x at h'
    cases h' with
    | done => cases hx
    | code _ _ h' =>
      cases hx
      rw [ih h']
    | literal =>
      cases hx
      exact absurd rfl hquote
    | lineComment | blockComment =>
      rw [hx] at hopens
      cases hopens
  | literal _ ih =>
    generalize hx : _ :: _ = x at h'
    cases h' with
    | done | lineComment | blockComment => cases hx
    | code hquote =>
      cases hx
      exact absurd rfl hquote
    | literal h' =>
      cases hx
      rw [ih h']
  | lineComment hs hcs _ ih =>
    generalize hx : _ :: _ = x at h'
    cases h' with
    | done | literal | blockComment => cases hx
    | code _ hopens =>
      rw [← hx] at hopens
      cases hopens
    | lineComment hs' hcs' h' =>
      simp only [List.cons.injEq, true_and] at hx
      obtain ⟨rfl, rfl⟩ := line_unique hs hs' hcs hcs' hx
      rw [ih h']
  | blockComment hs _ ih =>
    generalize hx : _ :: _ = x at h'
    cases h' with
    | done | literal | lineComment => cases hx
    | code _ hopens =>
      rw [← hx] at hopens
      cases hopens
    | blockComment hs' h' =>
      simp only [List.cons.injEq, true_and] at hx
      obtain ⟨rfl, rfl⟩ := blockEnd_unique hs hs' hx
      rw [ih h']

/-- A text is put together from the characters of its segments. -/
theorem map_fst_marks {rest cs : List Char} {gs : List Segment} (h : Scan rest cs gs) :
    (gs.flatMap Segment.marks).map (·.1) ++ rest = cs := by
  induction h with
  | done => rfl
  | code _ _ _ ih => simp [Segment.marks, ih]
  | @literal cs _ _ ih =>
    simpa [Segment.marks, Function.comp_def, ih] using append_literalSpan false cs
  | lineComment _ _ _ ih => simp [Segment.marks, Function.comp_def, ih]
  | blockComment _ _ ih => simp [Segment.marks, Function.comp_def, ih, blockEnd]

end Scan

/-- No line feed is removed. -/
theorem ne_lineFeed_of_removed {gs : List Segment} {c : Char}
    (hc : (c, false) ∈ gs.flatMap Segment.marks) : c ≠ '\n' := by
  obtain ⟨g, -, hc⟩ := List.mem_flatMap.mp hc
  cases g with
  | code | literal => simp [Segment.marks] at hc
  | lineComment | blockComment =>
    obtain ⟨c', -, heq⟩ := List.mem_map.mp hc
    obtain ⟨rfl, hne⟩ := Prod.mk.inj heq
    exact of_decide_eq_false hne

/-! ## Removing and replacing comments -/

/-- A text with `blank` in the place of every character that is removed from its comments. -/
def fill (blank : List Char) (gs : List Segment) : List Char :=
  (gs.flatMap Segment.marks).flatMap fun p => if p.2 then [p.1] else blank

theorem fill_cons (blank : List Char) (g : Segment) (gs : List Segment) :
    fill blank (g :: gs) = fill blank [g] ++ fill blank gs := by
  simp [fill]

theorem fill_code (blank : List Char) (c : Char) : fill blank [.code c] = [c] := rfl

theorem fill_literal (blank s : List Char) : fill blank [.literal s] = '"' :: s := by
  simp [fill, Segment.marks, List.flatMap_map]

/-- With nothing in their place the characters are left out. -/
theorem fill_nil (gs : List Segment) :
    fill [] gs = ((gs.flatMap Segment.marks).filter (·.2)).map (·.1) := by
  rw [fill]
  induction gs.flatMap Segment.marks with
  | nil => rfl
  | cons p ps ih => cases hp : p.2 <;> simp [hp, ih]

theorem fill_nil_lineComment {s : List Char} (hs : '\n' ∉ s) : fill [] [.lineComment s] = [] := by
  simp only [fill_nil, Segment.marks, List.flatMap_singleton, List.map_eq_nil_iff,
    List.filter_eq_nil_iff, List.forall_mem_map, List.forall_mem_cons, decide_eq_true_eq]
  exact ⟨by decide, by decide, fun c hc => ne_of_mem_of_not_mem hc hs⟩

theorem fill_nil_blockComment (s : List Char) :
    fill [] [.blockComment s] = s.filter (· = '\n') := by
  simp [fill_nil, Segment.marks, List.filter_map, Function.comp_def]

/-! ### Stripping -/

theorem stripFrom_lineComment {s cs : List Char} (hs : '\n' ∉ s) (hcs : ∀ c ∈ cs.head?, c = '\n') :
    stripFrom .lineComment (s ++ cs) = stripFrom .code cs := by
  induction s with
  | nil =>
    cases cs with
    | nil => rfl
    | cons c cs =>
      obtain rfl := hcs c rfl
      simp [stripFrom]
  | cons c s ih =>
    obtain ⟨hc, hs⟩ := not_or.mp (mt List.mem_cons.mpr hs)
    rw [List.cons_append, stripFrom, if_neg (Ne.symm hc), ih hs]

section BlockComment

variable {afterStar : Bool} {s : List Char}

/-- The next character in a comment that does not end there. -/
theorem stripFrom_blockComment_cons {c : Char} (cs : List Char)
    (h : ¬blockEnd <:+: if afterStar then '*' :: c :: s else c :: s) :
    stripFrom (.blockComment afterStar) (c :: cs) =
        (stripFrom (.blockComment (c = '*')) cs).map ([c].filter (· = '\n') ++ ·) ∧
      ¬blockEnd <:+: if c = '*' then '*' :: s else s := by
  have hcons : ¬blockEnd <:+: c :: s := by
    cases afterStar with
    | false => simpa using h
    | true => exact mt (fun h => blockEnd_infix_cons.mpr (.inr h)) h
  have hopen : ¬(afterStar && c = '/') = true := by
    cases afterStar with
    | false => simp
    | true =>
      intro hclose
      exact h (blockEnd_infix_cons.mpr (.inl ⟨rfl, by simpa using hclose⟩))
  constructor
  · rw [stripFrom, if_neg hopen]
    by_cases hline : c = '\n' <;> simp [hline]
  · split
    · next hstar => exact hstar ▸ hcons
    · exact mt (fun h => blockEnd_infix_cons.mpr (.inr h)) hcons

theorem stripFrom_blockComment {cs : List Char}
    (h : ¬blockEnd <:+: if afterStar then '*' :: s else s) :
    stripFrom (.blockComment afterStar) (s ++ blockEnd ++ cs) =
      (stripFrom .code cs).map (s.filter (· = '\n') ++ ·) := by
  induction s generalizing afterStar with
  | nil => cases afterStar <;> simp [stripFrom, blockEnd]
  | cons c s ih =>
    obtain ⟨hstep, h⟩ := stripFrom_blockComment_cons (s ++ blockEnd ++ cs) h
    rw [List.cons_append, List.cons_append, hstep, ih (by simpa using h), Option.map_map]
    simp [Function.comp_def, ← List.append_assoc, ← List.filter_append]

theorem stripFrom_blockComment_eq_none (h : ¬blockEnd <:+: if afterStar then '*' :: s else s) :
    stripFrom (.blockComment afterStar) s = none := by
  induction s generalizing afterStar with
  | nil => rfl
  | cons c s ih =>
    obtain ⟨hstep, h⟩ := stripFrom_blockComment_cons s h
    rw [hstep, ih (by simpa using h), Option.map_none]

end BlockComment

theorem stripFrom_code {c : Char} {cs : List Char} (hquote : c ≠ '"')
    (hopens : opensComment (c :: cs) = false) :
    stripFrom .code (c :: cs) = (stripFrom .code cs).map (c :: ·) := by
  rw [stripFrom, if_neg hquote]
  all_goals
    rintro cs' rfl rfl
    cases hopens

/-- What is stripped from a text that is read as segments. -/
theorem stripFrom_of_scan {rest cs : List Char} {gs : List Segment} (h : Scan rest cs gs) :
    stripFrom .code cs = (stripFrom .code rest).map (fill [] gs ++ ·) := by
  induction h with
  | done => simp [fill]
  | @code c cs gs hquote hopens _ ih =>
    rw [stripFrom_code hquote hopens, ih, Option.map_map, fill_cons, fill_code]
    rfl
  | @literal cs gs _ ih =>
    have hliteral := stripFrom_literal false cs
    simp only [Bool.false_eq_true, if_false] at hliteral
    rw [fill_cons, fill_literal]
    simp [stripFrom, hliteral, ih, Option.map_map, Function.comp_def]
  | lineComment hs hcs _ ih =>
    rw [fill_cons, fill_nil_lineComment hs, List.nil_append, stripFrom,
      stripFrom_lineComment hs hcs, ih]
  | blockComment hs _ ih =>
    rw [fill_cons, fill_nil_blockComment, stripFrom, stripFrom_blockComment (by simpa using hs), ih,
      Option.map_map]
    simp [Function.comp_def]

/-! ### Replacing -/

/-- A segment after the characters that are removed from a comment have been replaced. -/
def Segment.filled (blank : List Char) : Segment → List Segment
  | code c => [code c]
  | literal s => [literal s]
  | lineComment s => (fill blank [lineComment s]).map code
  | blockComment s => (fill blank [blockComment s]).map code

theorem opensComment_cons {c : Char} {cs : List Char} : opensComment (c :: cs) = true ↔
    c = '/' ∧ (cs.head? = some '/' ∨ cs.head? = some '*') := by
  unfold opensComment
  split
  · next heq =>
    cases heq
    simp
  · next hne =>
    cases cs with
    | nil => simp
    | cons d cs =>
      have hc : c ≠ '/' := fun h => hne d cs (h ▸ rfl)
      simp [hc]

theorem fill_map_code (blank cs : List Char) : fill blank (cs.map .code) = cs := by
  induction cs with
  | nil => rfl
  | cons c cs ih => rw [List.map_cons, fill_cons, fill_code, ih, List.singleton_append]

section Fill

variable {blank : List Char}

theorem fill_filled {blank' : List Char} (gs : List Segment) :
    fill blank' (gs.flatMap (Segment.filled blank)) = fill blank gs := by
  induction gs with
  | nil => rfl
  | cons g gs ih =>
    have happend : fill blank' ((g :: gs).flatMap (Segment.filled blank)) =
        fill blank' (g.filled blank) ++ fill blank' (gs.flatMap (Segment.filled blank)) := by
      simp [fill]
    rw [happend, ih, fill_cons]
    cases g with
    | code | literal => simp [Segment.filled, fill_code, fill_literal]
    | lineComment | blockComment => rw [Segment.filled, fill_map_code]

variable (hblank : ∀ c ∈ blank, isSpace c = true)
include hblank

/-- A comment with blanks in its place is blank : the characters that are kept are line feeds. -/
theorem isSpace_of_mem_fill {g : Segment} {s : List Char}
    (hg : g.marks = s.map fun c => (c, decide (c = '\n'))) :
    ∀ c ∈ fill blank [g], isSpace c = true := by
  intro c hc
  simp only [fill, List.flatMap_singleton, hg, List.mem_flatMap, List.mem_map] at hc
  obtain ⟨_, ⟨d, -, rfl⟩, hc⟩ := hc
  by_cases hline : d = '\n'
  · obtain rfl : c = d := by simpa [hline] using hc
    rw [hline]
    rfl
  · exact hblank c (by simpa [hline] using hc)

namespace Scan

omit hblank in
theorem head?_fill {cs : List Char} {gs : List Segment} (h : Scan [] cs gs)
    (hslash : cs.head? ≠ some '/') : (fill blank gs).head? = cs.head? := by
  cases h with
  | done => rfl
  | code => rw [fill_cons, fill_code]; rfl
  | literal => rw [fill_cons, fill_literal]; rfl
  | lineComment | blockComment => exact absurd rfl hslash

omit hblank in
theorem spaces {rest bs cs : List Char} {gs : List Segment} (hbs : ∀ c ∈ bs, isSpace c = true)
    (h : Scan rest cs gs) : Scan rest (bs ++ cs) (bs.map .code ++ gs) := by
  induction bs with
  | nil => exact h
  | cons c bs ih =>
    obtain ⟨hc, hbs⟩ := List.forall_mem_cons.mp hbs
    refine .code ?_ ?_ (ih hbs)
    · rintro rfl
      cases hc
    · rw [← Bool.not_eq_true, opensComment_cons]
      rintro ⟨rfl, -⟩
      cases hc

omit hblank in
theorem literalSpan_fill {s : List Char} {gs : List Segment}
    (h : Scan [] (literalSpan false s).2 gs) :
    literalSpan false ((literalSpan false s).1 ++ fill blank gs) =
      ((literalSpan false s).1, fill blank gs) :=
  literalSpan_append false s fun hrest => by
    rw [hrest] at h
    cases h
    rfl

/-- With blanks for its comments a text has the same code and literals. -/
theorem filled {cs : List Char} {gs : List Segment} (h : Scan [] cs gs) :
    Scan [] (fill blank gs) (gs.flatMap (Segment.filled blank)) := by
  induction h with
  | done => exact .done
  | @code c cs gs hquote hopens h ih =>
    rw [fill_cons, fill_code, List.singleton_append]
    refine .code hquote ?_ ih
    -- What stands behind a slash does not begin a comment, so it stays behind the slash.
    rw [← Bool.not_eq_true, opensComment_cons] at hopens ⊢
    rintro ⟨rfl, hhead⟩
    rw [h.head?_fill fun hslash => hopens ⟨rfl, .inl hslash⟩] at hhead
    exact hopens ⟨rfl, hhead⟩
  | @literal cs gs h ih =>
    have hscan := @Scan.literal [] ((literalSpan false cs).1 ++ fill blank gs)
      (gs.flatMap (Segment.filled blank))
    rw [h.literalSpan_fill] at hscan
    rw [fill_cons, fill_literal]
    exact hscan ih
  | lineComment _ _ _ ih | blockComment _ _ ih =>
    rw [fill_cons, List.flatMap_cons]
    exact .spaces (isSpace_of_mem_fill hblank rfl) ih

/-- There is nothing left to strip from a text with blanks for its comments. -/
theorem stripFrom_fill {cs : List Char} {gs : List Segment} (h : Scan [] cs gs) :
    stripFrom .code (fill blank gs) = some (fill blank gs) := by
  rw [stripFrom_of_scan (h.filled hblank), fill_filled]
  simp [stripFrom]

end Scan

end Fill

/-! ## Texts -/

theorem count_lineFeed {ps : List (Char × Bool)} (h : ∀ c, (c, false) ∈ ps → c ≠ '\n') :
    (ps.map (·.1)).count '\n' = ((ps.filter (·.2)).map (·.1)).count '\n' := by
  induction ps with
  | nil => rfl
  | cons p ps ih =>
    have ih := ih fun c hc => h c (List.mem_cons_of_mem _ hc)
    obtain ⟨c, keep⟩ := p
    cases keep with
    | true => simp [List.count_cons, ih]
    | false => simp [ih, h c List.mem_cons_self]

section Texts

variable {text : String} {gs : List Segment}

theorem stripComments_of_scan (h : Scan [] text.toList gs) :
    stripComments text = some (String.ofList (fill [] gs)) := by
  rw [stripComments, stripFrom_of_scan h]
  simp [stripFrom]

theorem stripComments_eq_none {s : List Char} (h : Scan ('/' :: '*' :: s) text.toList gs)
    (hs : ¬blockEnd <:+: s) : stripComments text = none := by
  rw [stripComments, stripFrom_of_scan h, stripFrom,
    stripFrom_blockComment_eq_none (by simpa using hs)]
  rfl

end Texts

/-- A text is stripped unless a block comment that begins outside of literals is never closed. What
is left are the characters of code and literals and the line feeds of comments, in their order and
on their lines, and there is nothing more to strip from it. -/
theorem stripComments_exact (text : String) :
    (stripComments text = none ↔
      ∃ gs s, Scan ('/' :: '*' :: s) text.toList gs ∧ ¬blockEnd <:+: s) ∧
    ∀ out, stripComments text = some out →
      ∃ gs, Scan [] text.toList gs ∧ (∀ gs', Scan [] text.toList gs' → gs' = gs) ∧
        (gs.flatMap Segment.marks).map (·.1) = text.toList ∧
        out.toList = ((gs.flatMap Segment.marks).filter (·.2)).map (·.1) ∧
        (∀ before c after, gs.flatMap Segment.marks = before ++ (c, true) :: after →
          (before.map (·.1)).count '\n' = ((before.filter (·.2)).map (·.1)).count '\n') ∧
        stripComments out = some out := by
  rcases exists_scan text.toList with ⟨gs, h⟩ | ⟨gs, s, h, hs⟩
  · have hstrip := stripComments_of_scan h
    refine ⟨iff_of_false (by simp [hstrip]) ?_, fun out hout => ?_⟩
    · rintro ⟨gs', s, h', hs⟩
      rw [stripComments_eq_none h' hs] at hstrip
      cases hstrip
    · obtain rfl := Option.some.inj (hstrip.symm.trans hout)
      refine ⟨gs, h, fun gs' h' => h'.unique h, by simpa using h.map_fst_marks, ?_,
        fun before c after hsplit => count_lineFeed fun d hd => ?_, ?_⟩
      · rw [String.toList_ofList, fill_nil]
      · exact ne_lineFeed_of_removed (hsplit ▸ List.mem_append_left _ hd)
      · rw [stripComments, String.toList_ofList, h.stripFrom_fill (List.forall_mem_nil _),
          Option.map_some]
  · have hstrip := stripComments_eq_none h hs
    refine ⟨iff_of_true hstrip ⟨gs, s, h, hs⟩, fun out hout => ?_⟩
    rw [hstrip] at hout
    cases hout

/-- A literal with a mark in it, a comment with a line feed and stars, and a comment at the end. -/
theorem stripComments_exact_marks :
    stripComments "[\"//\\\"\"/*/\n**/, 1]//*" = some "[\"//\\\"\"\n, 1]" ∧
      stripComments "[\"//\\\"\"\n, 1]" = some "[\"//\\\"\"\n, 1]" := by
  have hstrip : stripComments "[\"//\\\"\"/*/\n**/, 1]//*" = some "[\"//\\\"\"\n, 1]" := by
    decide +kernel
  obtain ⟨-, -, -, -, -, -, hagain⟩ := (stripComments_exact _).2 _ hstrip
  exact ⟨hstrip, hagain⟩

end NetworkCompiler.Json
