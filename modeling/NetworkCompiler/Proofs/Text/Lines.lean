import NetworkCompiler.Proofs.Text.Reading
import NetworkCompiler.Text.Split

/-!
# Lines of texts

A text is cut at a character into pieces without it (`not_mem_of_mem_splitAt`), and pieces without
it are found again when they are put together (`splitAt_append_cons`). So lines that were written
one below the other are read back, but for a carriage return at the end of a line, which belongs
to the line end (`lines_unlines`), and a line that was written behind others is the last one
(`lines_append_line`).
-/

namespace NetworkCompiler.Text

namespace Chars

variable {sep : Char} {cs : List Char}

theorem splitAt_cons (sep c : Char) (cs : List Char) :
    splitAt sep (c :: cs) =
      if c = sep then [] :: splitAt sep cs
      else (c :: (splitAt sep cs).headD []) :: (splitAt sep cs).tail := by
  rw [splitAt]
  cases h : splitAt sep cs with
  | nil => exact absurd h (splitAt_ne_nil sep cs)
  | cons piece rest => rfl

theorem splitAt_of_not_mem (h : sep ∉ cs) : splitAt sep cs = [cs] := by
  induction cs with
  | nil => rfl
  | cons c cs ih =>
    rw [List.mem_cons, not_or] at h
    obtain ⟨hc, hcs⟩ := h
    rw [splitAt_cons, if_neg (Ne.symm hc), ih hcs]
    rfl

theorem splitAt_append_cons (h : sep ∉ cs) (rest : List Char) :
    splitAt sep (cs ++ sep :: rest) = cs :: splitAt sep rest := by
  induction cs with
  | nil => rw [List.nil_append, splitAt_cons, if_pos rfl]
  | cons c cs ih =>
    rw [List.mem_cons, not_or] at h
    obtain ⟨hc, hcs⟩ := h
    rw [List.cons_append, splitAt_cons, if_neg (Ne.symm hc), ih hcs]
    rfl

/-- A separator cuts a text, whatever stands around it. -/
theorem splitAt_append_sep (cs rest : List Char) :
    splitAt sep (cs ++ sep :: rest) = splitAt sep cs ++ splitAt sep rest := by
  induction cs with
  | nil => rw [List.nil_append, splitAt_cons, if_pos rfl]; rfl
  | cons c cs ih =>
    rw [List.cons_append, splitAt_cons, splitAt_cons, ih]
    split
    · rfl
    · cases hpieces : splitAt sep cs with
      | nil => exact absurd hpieces (splitAt_ne_nil sep cs)
      | cons piece pieces => rfl

theorem not_mem_of_mem_splitAt {piece : List Char} (h : piece ∈ splitAt sep cs) :
    sep ∉ piece := by
  induction cs generalizing piece with
  | nil =>
    rw [splitAt, List.mem_singleton] at h
    simp [h]
  | cons c cs ih =>
    rw [splitAt_cons] at h
    split at h
    · rcases List.mem_cons.mp h with rfl | h
      · exact List.not_mem_nil
      · exact ih h
    · next hc =>
      rcases List.mem_cons.mp h with rfl | h
      · rw [List.mem_cons, not_or]
        refine ⟨Ne.symm hc, ?_⟩
        cases hpieces : splitAt sep cs with
        | nil => exact absurd hpieces (splitAt_ne_nil sep cs)
        | cons piece rest =>
          have hmem : piece ∈ splitAt sep cs := hpieces ▸ List.mem_cons_self
          exact ih hmem
      · exact ih (List.mem_of_mem_tail h)

/-- Pieces with a separator behind each are found again, with an empty one behind them. -/
theorem splitAt_flatMap {pieces : List (List Char)} (h : ∀ p ∈ pieces, sep ∉ p) :
    splitAt sep (pieces.flatMap (· ++ [sep])) = pieces ++ [[]] := by
  induction pieces with
  | nil => rfl
  | cons p pieces ih =>
    obtain ⟨hp, hpieces⟩ := List.forall_mem_cons.mp h
    rw [List.flatMap_cons, List.append_assoc, List.singleton_append, splitAt_append_cons hp,
      ih hpieces, List.cons_append]

/-- Pieces with a separator between them are found again. -/
theorem splitAt_intercalate {pieces : List (List Char)} (hne : pieces ≠ [])
    (h : ∀ p ∈ pieces, sep ∉ p) : splitAt sep ([sep].intercalate pieces) = pieces := by
  induction pieces with
  | nil => exact absurd rfl hne
  | cons p pieces ih =>
    obtain ⟨hp, hpieces⟩ := List.forall_mem_cons.mp h
    cases pieces with
    | nil => simpa using splitAt_of_not_mem hp
    | cons q qs =>
      rw [List.intercalate_cons_cons, List.append_assoc, List.singleton_append,
        splitAt_append_cons hp, ih (List.cons_ne_nil q qs) hpieces]

/-- A text with a separator behind it is its pieces with a separator behind each. -/
theorem flatMap_splitAt (sep : Char) (cs : List Char) :
    (splitAt sep cs).flatMap (· ++ [sep]) = cs ++ [sep] := by
  induction cs with
  | nil => rfl
  | cons c cs ih =>
    rw [splitAt_cons]
    split
    · next hc => rw [List.flatMap_cons, ih, hc]; rfl
    · cases hpieces : splitAt sep cs with
      | nil => exact absurd hpieces (splitAt_ne_nil sep cs)
      | cons piece pieces =>
        rw [hpieces, List.flatMap_cons] at ih
        rw [List.headD_cons, List.tail_cons, List.flatMap_cons, List.cons_append,
          List.cons_append, ih]
        rfl

theorem flatMap_append_sep (sep : Char) (pieces : List (List Char)) :
    pieces.flatMap (· ++ [sep]) = [] ∨ ∃ cs, pieces.flatMap (· ++ [sep]) = cs ++ [sep] := by
  rcases List.eq_nil_or_concat pieces with rfl | ⟨pieces, p, rfl⟩
  · exact .inl rfl
  · exact .inr ⟨pieces.flatMap (· ++ [sep]) ++ p, by simp⟩

/-- A piece is empty where a separator has nothing in front of it or behind it. -/
theorem nil_mem_splitAt_iff : [] ∈ splitAt sep cs ↔
    cs = [] ∨ cs.head? = some sep ∨ cs.getLast? = some sep ∨ [sep, sep] <:+: cs := by
  constructor
  · intro h
    obtain ⟨front, back, hsplit⟩ := List.append_of_mem h
    have hcs : front.flatMap (· ++ [sep]) ++ sep :: back.flatMap (· ++ [sep]) = cs ++ [sep] := by
      rw [← flatMap_splitAt, hsplit, List.flatMap_append, List.flatMap_cons]
      rfl
    have hcancel : ∀ ds, ds ++ [sep] = cs ++ [sep] → cs = ds := fun ds hds =>
      (List.append_cancel_right hds).symm
    rcases flatMap_append_sep sep front with hfront | ⟨ds, hfront⟩ <;>
      rcases flatMap_append_sep sep back with hback | ⟨es, hback⟩ <;>
        rw [hfront, hback] at hcs
    · exact .inl (hcancel [] hcs)
    · rw [hcancel (sep :: es) hcs]
      exact .inr (.inl rfl)
    · rw [hcancel (ds ++ [sep]) hcs]
      exact .inr (.inr (.inl List.getLast?_concat))
    · rw [hcancel (ds ++ [sep, sep] ++ es) (by simpa using hcs)]
      exact .inr (.inr (.inr (List.infix_append ds [sep, sep] es)))
  · rintro (rfl | h | h | ⟨front, back, rfl⟩)
    · exact List.mem_singleton_self []
    · obtain ⟨rest, rfl⟩ := List.head?_eq_some_iff.mp h
      rw [splitAt_cons, if_pos rfl]
      exact List.mem_cons_self
    · obtain ⟨front, rfl⟩ := List.getLast?_eq_some_iff.mp h
      rw [splitAt_append_sep]
      exact List.mem_append_right _ (List.mem_singleton_self [])
    · rw [List.append_assoc, List.cons_append, splitAt_append_sep, List.singleton_append,
        splitAt_cons, if_pos rfl]
      exact List.mem_append_right _ List.mem_cons_self

/-- Pieces hold nothing but what was cut. -/
theorem subset_of_mem_splitAt {piece : List Char} (h : piece ∈ splitAt sep cs) : piece ⊆ cs := by
  intro c hc
  have hflat : c ∈ (splitAt sep cs).flatMap (· ++ [sep]) :=
    List.mem_flatMap.mpr ⟨piece, h, List.mem_append_left _ hc⟩
  rw [flatMap_splitAt, List.mem_append, List.mem_singleton] at hflat
  refine hflat.resolve_right ?_
  rintro rfl
  exact not_mem_of_mem_splitAt h hc

theorem dropReturn_subset (cs : List Char) : dropReturn cs ⊆ cs := by
  rw [dropReturn]
  cases hreturn : before? ['\r'] cs with
  | none => exact List.Subset.refl cs
  | some rest =>
    rw [before?_eq_some] at hreturn
    rw [hreturn]
    exact List.subset_append_left rest ['\r']

/-- A line is a piece, but for a carriage return at its end. -/
theorem exists_piece_of_mem_lines {l : List Char} (h : l ∈ lines cs) :
    ∃ piece ∈ splitAt '\n' cs, l ⊆ piece := by
  rw [lines, List.mem_append] at h
  rcases h with h | h
  · obtain ⟨piece, hpiece, rfl⟩ := List.mem_map.mp h
    exact ⟨piece, List.dropLast_subset _ hpiece, dropReturn_subset piece⟩
  · split_ifs at h with hempty
    · cases h
    · rw [List.mem_singleton] at h
      subst h
      have hlast := List.getLast?_eq_some_getLast (splitAt_ne_nil '\n' cs)
      refine ⟨_, List.mem_of_getLast? hlast, ?_⟩
      rw [List.getLastD_eq_getLast?, hlast]
      exact List.Subset.refl _

/-- The lines of a text that a line feed ends are its pieces. -/
theorem lines_append_newline (cs : List Char) :
    lines (cs ++ ['\n']) = (splitAt '\n' cs).map dropReturn := by
  rw [lines, splitAt_append_sep]
  simp [splitAt]

theorem dropReturn_of_getLast? (h : cs.getLast? ≠ some '\r') : dropReturn cs = cs := by
  rw [dropReturn]
  cases hreturn : before? ['\r'] cs with
  | none => rfl
  | some rest =>
    rw [before?_eq_some] at hreturn
    simp [hreturn] at h

end Chars

theorem not_mem_of_mem_splitAt {sep : Char} {s piece : String} (h : piece ∈ splitAt sep s) :
    sep ∉ piece.toList := by
  obtain ⟨cs, hcs, rfl⟩ := List.mem_map.mp h
  rw [String.toList_ofList]
  exact Chars.not_mem_of_mem_splitAt hcs

theorem subset_of_mem_splitAt {sep : Char} {s piece : String} (h : piece ∈ splitAt sep s) :
    piece.toList ⊆ s.toList := by
  obtain ⟨cs, hcs, rfl⟩ := List.mem_map.mp h
  rw [String.toList_ofList]
  exact Chars.subset_of_mem_splitAt hcs

/-- Nothing is lost by cutting. -/
theorem joinWith_splitAt {sep : Char} {between : String} (hsep : between.toList = [sep])
    (s : String) : joinWith between (splitAt sep s) = s := by
  rw [← String.toList_inj, joinWith, String.toList_intercalate, hsep, splitAt, List.map_map]
  simpa [Function.comp_def] using Chars.intercalate_splitAt sep s.toList

/-- Pieces with a separator between them are found again. -/
theorem splitAt_joinWith {sep : Char} {between : String} (hsep : between.toList = [sep])
    {pieces : List String} (hne : pieces ≠ []) (h : ∀ p ∈ pieces, sep ∉ p.toList) :
    splitAt sep (joinWith between pieces) = pieces := by
  rw [splitAt, joinWith, String.toList_intercalate, hsep,
    Chars.splitAt_intercalate (by simpa using hne) (by simpa using h), List.map_map]
  simp [Function.comp_def]

theorem after?_eq_some {start s rest : String} :
    after? start s = some rest ↔ s = start ++ rest := by
  rw [after?, Option.map_eq_some_iff]
  constructor
  · rintro ⟨cs, hcs, rfl⟩
    rw [← String.toList_inj, String.toList_append, String.toList_ofList]
    exact Chars.after?_eq_some.mp hcs
  · rintro rfl
    exact ⟨rest.toList, by rw [String.toList_append, Chars.after?_append], String.ofList_toList⟩

/-- A text on one line. -/
def IsLine (s : String) : Prop :=
  '\n' ∉ s.toList

instance (s : String) : Decidable (IsLine s) :=
  inferInstanceAs (Decidable ('\n' ∉ s.toList))

theorem isLine_append {s t : String} (hs : IsLine s) (ht : IsLine t) : IsLine (s ++ t) := by
  rw [IsLine, String.toList_append, List.mem_append, not_or]
  exact ⟨hs, ht⟩

theorem isLine_of_isSolid {s : String} (h : Chars.IsSolid s.toList) : IsLine s :=
  fun hmem => absurd (h _ hmem) (by decide)

theorem isLine_of_mem_lines {s l : String} (h : l ∈ lines s) : IsLine l := by
  obtain ⟨cs, hcs, rfl⟩ := List.mem_map.mp h
  obtain ⟨piece, hpiece, hsubset⟩ := Chars.exists_piece_of_mem_lines hcs
  rw [IsLine, String.toList_ofList]
  exact fun hmem => Chars.not_mem_of_mem_splitAt hpiece (hsubset hmem)

theorem not_mem_of_mem_lines {s l : String} {c : Char} (hc : c ∉ s.toList) (h : l ∈ lines s) :
    c ∉ l.toList := by
  obtain ⟨cs, hcs, rfl⟩ := List.mem_map.mp h
  obtain ⟨piece, hpiece, hsubset⟩ := Chars.exists_piece_of_mem_lines hcs
  rw [String.toList_ofList]
  exact fun hmem => hc (Chars.subset_of_mem_splitAt hpiece (hsubset hmem))

theorem toList_unlines (ls : List String) :
    (unlines ls).toList = (ls.map String.toList).flatMap (· ++ ['\n']) := by
  induction ls with
  | nil => rfl
  | cons l ls ih =>
    rw [unlines] at ih ⊢
    simp [String.join_cons, ih]

theorem splitAt_unlines {ls : List String} (h : ∀ l ∈ ls, IsLine l) :
    Chars.splitAt '\n' (unlines ls).toList = ls.map String.toList ++ [[]] := by
  rw [toList_unlines]
  exact Chars.splitAt_flatMap (List.forall_mem_map.mpr h)

theorem unlines_inj {ls ms : List String} (hls : ∀ l ∈ ls, IsLine l) (hms : ∀ l ∈ ms, IsLine l) :
    unlines ls = unlines ms ↔ ls = ms := by
  refine ⟨fun h => ?_, fun h => h ▸ rfl⟩
  have hsplit := splitAt_unlines hls
  rw [h, splitAt_unlines hms, List.append_left_inj] at hsplit
  exact (List.map_inj_right fun _ _ => String.toList_inj.mp).mp hsplit.symm

theorem lines_unlines {ls : List String} (h : ∀ l ∈ ls, IsLine l) :
    lines (unlines ls) = ls.map fun l => String.ofList (Chars.dropReturn l.toList) := by
  rw [lines, Chars.lines, splitAt_unlines h]
  simp [Function.comp_def]

/-- A text in which no line is left open. -/
def EndsLine (s : String) : Prop :=
  s = "" ∨ ∃ t, s = t ++ "\n"

/-- A line behind others is the last line. -/
theorem lines_append_line {s line : String} (hs : EndsLine s) (hline : IsLine line)
    (hreturn : '\r' ∉ line.toList) : lines (s ++ line ++ "\n") = lines s ++ [line] := by
  have hdrop : Chars.dropReturn line.toList = line.toList :=
    Chars.dropReturn_of_getLast? fun hlast => hreturn (List.mem_of_getLast? hlast)
  have hsplit : Chars.splitAt '\n' line.toList = [line.toList] := Chars.splitAt_of_not_mem hline
  have hnewline : "\n".toList = ['\n'] := rfl
  rw [lines, String.toList_append, hnewline, Chars.lines_append_newline, String.toList_append]
  rcases hs with rfl | ⟨t, rfl⟩
  · rw [String.toList_empty, List.nil_append, hsplit, List.map_singleton, hdrop, List.map_singleton,
      String.ofList_toList]
    rfl
  · rw [lines, String.toList_append, hnewline, Chars.lines_append_newline, List.append_assoc,
      List.singleton_append, Chars.splitAt_append_sep, hsplit, List.map_append, List.map_append,
      List.map_singleton, hdrop, List.map_singleton, String.ofList_toList]

end NetworkCompiler.Text
