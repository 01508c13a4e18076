import NetworkCompiler.Proofs.Text.Words

/-!
# Entries of files

Many files hold one entry on a line : a fixed beginning, then a value. `behind` reads the values of
one beginning off a text. In a text of whole lines it reads each line by itself
(`behind_unlines`), so it is enough to know which lines begin so (`after?_append_right`) and which
do not : because they differ from the beginning where both have a character (`after?_of_clashes`),
or in front of the first separator (`after?_piece`). In other files the first word of a line
is what the line is about (`firstWords`).
-/

namespace NetworkCompiler.Text

/-- What stands behind `start` on the lines that begin with it. -/
def behind (start text : String) : List String :=
  (splitAt '\n' text).filterMap (after? start)

namespace Chars

theorem words_ne_nil {c : Char} {cs : List Char} (hc : c ∈ cs) (hsolid : isBlank c = false) :
    words cs ≠ [] := by
  have haux : (wordsAux cs).1 ≠ [] ∨ (wordsAux cs).2 ≠ [] := by
    induction cs with
    | nil => cases hc
    | cons d cs ih =>
      rw [wordsAux]
      rcases List.mem_cons.mp hc with rfl | hc
      · exact .inl (by simp [hsolid])
      · have htail := ih hc
        by_cases hword : (wordsAux cs).1 = [] <;> cases hd : isBlank d <;> simp_all
  rw [words]
  by_cases hword : (wordsAux cs).1 = [] <;> simp_all

/-- Whether two texts differ at a place that both have. -/
def clashes : List Char → List Char → Bool
  | c :: cs, d :: ds => c ≠ d || clashes cs ds
  | _, _ => false

theorem after?_of_clashes {start cs : List Char} (h : clashes start cs = true) (rest : List Char) :
    after? start (cs ++ rest) = none := by
  induction start generalizing cs with
  | nil => cases h
  | cons s start ih =>
    cases cs with
    | nil => cases h
    | cons c cs =>
      rw [List.cons_append, after?]
      split
      · next hc =>
        simp only [clashes, hc, ne_eq, not_true_eq_false, decide_false, Bool.false_or] at h
        exact ih h
      · rfl

theorem after?_append_left (start next cs : List Char) :
    after? (start ++ next) cs = (after? start cs).bind (after? next) := by
  induction start generalizing cs with
  | nil => rfl
  | cons s start ih =>
    cases cs with
    | nil => rfl
    | cons c cs =>
      rw [List.cons_append, after?, after?]
      split
      · exact ih cs
      · rfl

end Chars

/-- A beginning is read piece by piece. -/
theorem after?_append_left (start next s : String) :
    after? (start ++ next) s = (after? start s).bind (after? next) := by
  rw [after?, after?, String.toList_append, Chars.after?_append_left, Option.map_bind,
    Option.bind_map]
  congr 1
  funext cs
  simp only [Function.comp_apply, after?, String.toList_ofList]

theorem after?_append_of_eq_none {start s : String} (h : after? start s = none) (next : String) :
    after? (start ++ next) s = none := by
  rw [after?_append_left, h, Option.bind_none]

theorem after?_of_clashes {start s : String} (h : Chars.clashes start.toList s.toList = true)
    (rest : String) : after? start (s ++ rest) = none := by
  rw [after?, String.toList_append, Chars.after?_of_clashes h, Option.map_none]

theorem after?_append_right (start rest : String) : after? start (start ++ rest) = some rest :=
  after?_eq_some.mpr rfl

theorem after?_append_append (start next rest : String) :
    after? (start ++ next) (start ++ rest) = after? next rest := by
  rw [after?_append_left, after?_append_right, Option.bind_some]

/-- What stands in front of the first separator is read as a whole. -/
theorem after?_piece {sep : String} {c : Char} (hsep : sep.toList = [c]) {w v : String}
    (hw : c ∉ w.toList) (hv : c ∉ v.toList) (s t : String) :
    after? (w ++ sep ++ s) (v ++ sep ++ t) = if v = w then after? s t else none := by
  split
  · next h =>
    rw [h, after?_append_append]
  · next h =>
    rw [Option.eq_none_iff_forall_ne_some]
    intro rest hrest
    rw [after?_eq_some, ← String.toList_inj] at hrest
    simp only [String.toList_append, List.append_assoc, hsep, List.cons_append,
      List.nil_append] at hrest
    have hcut := Chars.cutAt?_append_cons hv t.toList
    rw [hrest, Chars.cutAt?_append_cons hw] at hcut
    exact h (String.toList_inj.mp (Prod.ext_iff.mp (Option.some.inj hcut)).1.symm)

/-- The lines of a text are read one by one. -/
theorem behind_unlines {start : String} (hstart : start ≠ "") {ls : List String}
    (h : ∀ l ∈ ls, IsLine l) : behind start (unlines ls) = ls.filterMap (after? start) := by
  have hempty : after? start (String.ofList []) = none := by
    rw [Option.eq_none_iff_forall_ne_some]
    intro rest hrest
    rw [after?_eq_some, ← String.toList_inj, String.toList_append, String.toList_ofList] at hrest
    exact hstart (String.toList_inj.mp (List.append_eq_nil_iff.mp hrest.symm).1)
  rw [behind, splitAt, splitAt_unlines h, List.map_append, List.filterMap_append, List.map_map,
    List.map_singleton, List.filterMap_cons, hempty, List.filterMap_nil, List.append_nil]
  simp [Function.comp_def]

/-! ## Blocks -/

/-- What stands in front of an entry of a block. -/
def margin : String := "    "

/-- Of the lines of a block only its entries are indented. -/
theorem after?_margin_append (key entry : String) :
    after? (margin ++ key) ("    " ++ entry) = after? key entry :=
  after?_append_append margin key entry

theorem after?_margin_eq_none {head : String} (h : Chars.clashes margin.toList head.toList = true)
    (key rest : String) : after? (margin ++ key) (head ++ rest) = none :=
  after?_append_of_eq_none (after?_of_clashes h rest) key

/-! ## First words -/

/-- The first words of the lines that have words. -/
def firstWords (text : String) : List String :=
  (splitAt '\n' text).filterMap fun l => (words l).head?

theorem firstWords_append (s t : String) :
    firstWords (s ++ "\n" ++ t) = firstWords s ++ firstWords t := by
  have hchars : (s ++ "\n" ++ t).toList = s.toList ++ '\n' :: t.toList := by simp
  rw [firstWords, splitAt, hchars, Chars.splitAt_append_sep, List.map_append,
    List.filterMap_append]
  rfl

theorem firstWords_unlines (ls : List String) :
    firstWords (unlines ls) = ls.flatMap firstWords := by
  induction ls with
  | nil => rfl
  | cons l ls ih =>
    rw [unlines, List.map_cons, String.join_cons, firstWords_append, List.flatMap_cons]
    exact congrArg _ ih

/-- A line that begins with a word has it as its first one. -/
theorem firstWords_of_isLine {w : String} (hw : IsWord w) {c : Char} (hc : isBlank c = true)
    {rest : List Char} (hline : IsLine (String.ofList (w.toList ++ c :: rest))) :
    firstWords (String.ofList (w.toList ++ c :: rest)) = [w] := by
  have hblank : (Chars.wordsAux (c :: rest)).1 = [] := by
    rw [Chars.wordsAux, hc]
    rfl
  have hhead : (words (String.ofList (w.toList ++ c :: rest))).head? = some w := by
    rw [words, String.toList_ofList, Chars.words, Chars.wordsAux_append hw.2, hblank,
      List.append_nil]
    simp [hw.1]
  rw [firstWords, splitAt, Chars.splitAt_of_not_mem hline, List.map_singleton,
    List.filterMap_cons, String.ofList_toList, hhead, List.filterMap_nil]

/-- A text that is not blank has a first word on some line. -/
theorem firstWords_ne_nil {s : String} {c : Char} (hc : c ∈ s.toList) (hsolid : isBlank c = false) :
    firstWords s ≠ [] := by
  have hpiece : c ∈ (Chars.splitAt '\n' s.toList).flatMap (· ++ ['\n']) := by
    rw [Chars.flatMap_splitAt]
    exact List.mem_append_left _ hc
  obtain ⟨piece, hmem, hc⟩ := List.mem_flatMap.mp hpiece
  have hc : c ∈ piece := by
    refine (List.mem_append.mp hc).resolve_right fun hline => ?_
    rw [List.mem_singleton.mp hline] at hsolid
    cases hsolid
  have hwords := Chars.words_ne_nil hc hsolid
  intro hnil
  rw [firstWords, List.filterMap_eq_nil_iff] at hnil
  have hnone := hnil _ (List.mem_map_of_mem hmem)
  rw [words, String.toList_ofList, List.head?_eq_none_iff, List.map_eq_nil_iff] at hnone
  exact hwords hnone

end NetworkCompiler.Text
