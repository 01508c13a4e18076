import Mathlib.Data.List.TakeWhile
import NetworkCompiler.Proofs.Text.Lines
import NetworkCompiler.Shell.Token
import NetworkCompiler.Shell.Word

/-!
# Words and documents

What a shell reads of words and of texts that are taken from the lines behind a command : a quoted
text is one word of quoted pieces (`readWord?_quoteChars`), and a document ends at the first line
that is its delimiter (`readDocument?_lines`). The tokens of a script are found one after the
other, each in front of an arbitrary rest.
-/

namespace NetworkCompiler.Shell

open Text.Chars (cutAt?_append_cons intercalate_splitAt not_mem_of_mem_splitAt splitAt splitAt_cons
  splitAt_ne_nil takeWhile_append_cons)

/-! ## Words -/

section Words

variable {fuel : Nat} {c : Char} {cs rest : List Char}

theorem parts?_of_isAt (h : WordEnd.word.isAt rest = true) :
    parts? (fuel + 1) false .word rest = some ([], rest) := by
  unfold parts?
  rw [if_pos h]

/-- Outside double quotes a word is read part by part. -/
theorem parts?_eq_part? (hat : WordEnd.word.isAt cs = false)
    (hline : ∀ rest, cs ≠ '\\' :: '\n' :: rest) (hquote : ∀ rest, cs ≠ '"' :: rest) :
    parts? (fuel + 1) false .word cs =
      (part? fuel false cs).bind fun (p, rest) =>
        (parts? fuel false .word rest).map fun (ps, rest) => (Word.add p ps, rest) := by
  rw [parts?, hat, if_neg Bool.false_ne_true]
  · simp only [Option.bind_eq_bind, Option.pure_def, Option.map_eq_bind]
    rfl
  · exact hline
  · exact hquote

/-- A character that is part of a word and stands for itself. -/
def isPlainWordChar (c : Char) : Bool :=
  !endsWord c && c ∉ ['\\', '`', '$', '\'', '"']

theorem part?_plain (hc : isPlainWordChar c = true) (cs : List Char) :
    part? (fuel + 1) false (c :: cs) = some (.text c.toString, cs) := by
  simp only [isPlainWordChar, Bool.and_eq_true, decide_eq_true_eq, List.mem_cons,
    List.not_mem_nil, or_false, not_or] at hc
  obtain ⟨-, hbackslash, hbackquote, hdollar, hsingle, hdouble⟩ := hc
  unfold part?
  split <;> simp_all

theorem parts?_plain (hc : isPlainWordChar c = true) (cs : List Char) :
    parts? (fuel + 2) false .word (c :: cs) =
      (parts? (fuel + 1) false .word cs).map fun (ps, rest) =>
        (Word.add (.text c.toString) ps, rest) := by
  have hchar := hc
  simp only [isPlainWordChar, Bool.and_eq_true, Bool.not_eq_true', decide_eq_true_eq,
    List.mem_cons, List.not_mem_nil, or_false, not_or] at hchar
  obtain ⟨hends, hbackslash, -, -, -, hdouble⟩ := hchar
  have hat : WordEnd.word.isAt (c :: cs) = false := hends
  rw [parts?_eq_part? hat (by simp [hbackslash]) (by simp [hdouble]), part?_plain hc]
  rfl

theorem parts?_quoted (h : '\'' ∉ cs) (rest : List Char) :
    parts? (fuel + 2) false .word ('\'' :: (cs ++ '\'' :: rest)) =
      (parts? (fuel + 1) false .word rest).map fun (ps, rest) =>
        (.quoted (String.ofList cs) :: ps, rest) := by
  have hpart : part? (fuel + 1) false ('\'' :: (cs ++ '\'' :: rest)) =
      (untilQuote? (cs ++ '\'' :: rest)).map fun cut =>
        (.quoted (String.ofList cut.1), cut.2) := by
    rfl
  rw [parts?_eq_part? rfl (by simp) (by simp), hpart, untilQuote?, cutAt?_append_cons h]
  rfl

theorem parts?_escaped (hc : c ≠ '\n') (cs : List Char) :
    parts? (fuel + 2) false .word ('\\' :: c :: cs) =
      (parts? (fuel + 1) false .word cs).map fun (ps, rest) =>
        (.quoted c.toString :: ps, rest) := by
  rw [parts?_eq_part? rfl (by simp [hc]) (by simp)]
  rfl

/-- A word of plain characters is read as one piece. -/
theorem parts?_append_of_plain {c : Char} {cs : List Char}
    (h : ∀ d ∈ c :: cs, isPlainWordChar d = true) (hrest : WordEnd.word.isAt rest = true) :
    parts? (cs.length + fuel + 2) false .word (c :: cs ++ rest) =
      some ([.text (String.ofList (c :: cs))], rest) := by
  induction cs generalizing c with
  | nil =>
    rw [List.length_nil, Nat.zero_add, List.cons_append, parts?_plain (h c List.mem_cons_self),
      List.nil_append, parts?_of_isAt hrest]
    rfl
  | cons d cs ih =>
    obtain ⟨hc, hcs⟩ := List.forall_mem_cons.mp h
    have hfuel : (d :: cs).length + fuel + 2 = cs.length + fuel + 1 + 2 := by
      rw [List.length_cons]
      omega
    have hword : String.ofList (c :: d :: cs) = c.toString ++ String.ofList (d :: cs) :=
      String.ofList_cons
    rw [hfuel, List.cons_append, parts?_plain hc, ih hcs, hword]
    rfl

/-- The pieces of a quoted text : what its quotes leave between them, and the quotes. -/
def quotedPieces (cs : List Char) : List (List Char) :=
  (splitAt '\'' cs).intersperse ['\'']

/-- A quoted text as a word. -/
def quotedWord (cs : List Char) : Word :=
  (quotedPieces cs).map fun piece => .quoted (String.ofList piece)

theorem flatten_quotedPieces (cs : List Char) : (quotedPieces cs).flatten = cs :=
  intercalate_splitAt '\'' cs

theorem literal_map_quoted (pieces : List (List Char)) :
    Word.literal (pieces.map fun piece => .quoted (String.ofList piece)) =
      String.ofList pieces.flatten := by
  induction pieces with
  | nil => rw [List.map_nil, Word.literal]; rfl
  | cons piece pieces ih =>
    rw [List.map_cons, Word.literal, ih, Word.partText, List.flatten_cons, String.ofList_append]

/-- A quoted text without its quotes is the text. -/
theorem literal_quotedWord (cs : List Char) : Word.literal (quotedWord cs) = String.ofList cs := by
  rw [quotedWord, literal_map_quoted, flatten_quotedPieces]

theorem quotedPieces_ne_nil (cs : List Char) : quotedPieces cs ≠ [] := by
  cases hpieces : splitAt '\'' cs with
  | nil => exact absurd hpieces (splitAt_ne_nil '\'' cs)
  | cons piece pieces =>
    rw [quotedPieces, hpieces]
    cases pieces <;> nofun

theorem quoteBody_eq_intercalate (cs : List Char) :
    quoteBody cs = ['\'', '\\', '\'', '\''].intercalate (splitAt '\'' cs) := by
  induction cs with
  | nil => rfl
  | cons c cs ih =>
    rw [quoteBody, splitAt_cons, ih]
    cases hpieces : splitAt '\'' cs with
    | nil => exact absurd hpieces (splitAt_ne_nil '\'' cs)
    | cons piece pieces =>
      split
      · simp [List.intercalate]
      · cases pieces <;> simp [List.intercalate]

/-- Quoted pieces with escaped quotes between them are one word. -/
theorem parts?_intercalate {pieces : List (List Char)} (hne : pieces ≠ [])
    (h : ∀ piece ∈ pieces, '\'' ∉ piece) (hrest : WordEnd.word.isAt rest = true) :
    parts? (2 * pieces.length + fuel) false .word
        ('\'' :: (['\'', '\\', '\'', '\''].intercalate pieces ++ '\'' :: rest)) =
      some ((pieces.intersperse ['\'']).map fun piece => .quoted (String.ofList piece), rest) := by
  induction pieces with
  | nil => exact absurd rfl hne
  | cons piece pieces ih =>
    obtain ⟨hpiece, hpieces⟩ := List.forall_mem_cons.mp h
    cases pieces with
    | nil =>
      rw [List.length_singleton, Nat.mul_one, Nat.add_comm, List.intercalate_singleton,
        parts?_quoted hpiece, parts?_of_isAt hrest]
      rfl
    | cons next pieces =>
      have hfuel : 2 * (piece :: next :: pieces).length + fuel =
          2 * pieces.length + fuel + 2 + 2 := by
        rw [List.length_cons, List.length_cons]
        omega
      have hfuel' : 2 * pieces.length + fuel + 1 + 1 = 2 * (next :: pieces).length + fuel := by
        rw [List.length_cons]
        omega
      have htext : ['\'', '\\', '\'', '\''].intercalate (piece :: next :: pieces) ++ '\'' :: rest =
          piece ++ '\'' :: '\\' :: '\'' :: '\'' ::
            (['\'', '\\', '\'', '\''].intercalate (next :: pieces) ++ '\'' :: rest) := by
        rw [List.intercalate_cons_cons]
        simp
      rw [hfuel, htext, parts?_quoted hpiece, parts?_escaped (by decide), hfuel',
        ih (List.cons_ne_nil _ _) hpieces]
      rfl

theorem length_splitAt_le (sep : Char) (cs : List Char) :
    (splitAt sep cs).length ≤ cs.length + 1 := by
  induction cs with
  | nil => simp [splitAt]
  | cons c cs ih =>
    rw [splitAt_cons, List.length_cons]
    split
    · rw [List.length_cons]
      omega
    · rw [List.length_cons, List.length_tail]
      omega

theorem length_le_length_quoteBody (cs : List Char) : cs.length ≤ (quoteBody cs).length := by
  induction cs with
  | nil => exact Nat.zero_le _
  | cons c cs ih =>
    rw [quoteBody]
    split <;> simp only [List.length_cons] <;> omega

/-- A quoted text is one word. -/
theorem readWord?_quoteChars (cs : List Char) (hrest : WordEnd.word.isAt rest = true) :
    readWord? (quoteChars cs ++ rest) = some (quotedWord cs, rest) := by
  have htext : quoteChars cs ++ rest = '\'' ::
      (['\'', '\\', '\'', '\''].intercalate (splitAt '\'' cs) ++ '\'' :: rest) := by
    rw [quoteChars, quoteBody_eq_intercalate]
    simp
  have hlength : 2 * (splitAt '\'' cs).length ≤ 2 * (quoteChars cs ++ rest).length + 2 := by
    have hpieces := length_splitAt_le '\'' cs
    have hbody := length_le_length_quoteBody cs
    simp only [quoteChars, List.length_append, List.length_cons]
    omega
  obtain ⟨fuel, hfuel⟩ := Nat.exists_eq_add_of_le hlength
  rw [readWord?, hfuel, htext]
  exact parts?_intercalate (splitAt_ne_nil '\'' cs) (fun _ => not_mem_of_mem_splitAt) hrest

/-- Different texts are different words when they are quoted. -/
theorem quote_inj {s t : String} (h : quote s = quote t) : s = t := by
  have hread : ∀ s : String,
      readWord? ((quote s).toList ++ []) = some (quotedWord s.toList, []) := fun s => by
    rw [quote, String.toList_ofList]
    exact readWord?_quoteChars s.toList rfl
  have hwords : quotedWord s.toList = quotedWord t.toList := by
    have hboth := (hread s).symm.trans (h ▸ hread t)
    exact (Prod.mk.inj (Option.some.inj hboth)).1
  have hpieces : quotedPieces s.toList = quotedPieces t.toList := by
    refine List.map_injective_iff.mpr (fun p q hpq => ?_) hwords
    exact String.ofList_injective (WordPart.quoted.inj hpq)
  apply String.toList_injective
  rw [← flatten_quotedPieces s.toList, hpieces, flatten_quotedPieces]

/-- Plain characters are one word. -/
theorem readWord?_of_plain {cs : List Char} (hne : cs ≠ [])
    (h : cs.all isPlainWordChar = true) (hrest : WordEnd.word.isAt rest = true) :
    readWord? (cs ++ rest) = some ([.text (String.ofList cs)], rest) := by
  cases cs with
  | nil => exact absurd rfl hne
  | cons c cs =>
    have hfuel : 2 * (c :: cs ++ rest).length + 2 =
        cs.length + (cs.length + 2 * rest.length + 2) + 2 := by
      rw [List.length_append, List.length_cons]
      omega
    rw [readWord?, hfuel]
    exact parts?_append_of_plain (List.all_eq_true.mp h) hrest

end Words

/-! ## Documents -/

section Documents

variable {d : PendingDocument} {fuel : Nat} {line rest : List Char} {lines : List (List Char)}

theorem cutLine_append (h : '\n' ∉ line) (rest : List Char) :
    cutLine (line ++ '\n' :: rest) = (line, rest) := by
  have hline : ∀ c ∈ line, decide (c ≠ '\n') = true := fun c hc =>
    decide_eq_true fun heq => h (heq ▸ hc)
  obtain ⟨htake, hdrop⟩ := takeWhile_append_cons (c := '\n') hline (by decide) rest
  rw [cutLine, htake, hdrop]
  rfl

theorem cutLine_of_not_mem (h : '\n' ∉ line) : cutLine line = (line, []) := by
  have hline : ∀ c ∈ line, decide (c ≠ '\n') = true := fun c hc =>
    decide_eq_true fun heq => h (heq ▸ hc)
  rw [cutLine, List.takeWhile_eq_self_iff.mpr hline, List.dropWhile_eq_nil_iff.mpr hline]
  rfl

theorem documentLines_eq {cs : List Char} (htabs : d.dropTabs = false) (hne : cs ≠ [])
    (hcut : cutLine cs = (line, rest)) :
    documentLines d (fuel + 1) cs =
      if line = d.delimiter.toList then ([], rest)
      else (line ++ '\n' :: (documentLines d fuel rest).1, (documentLines d fuel rest).2) := by
  cases cs with
  | nil => exact absurd rfl hne
  | cons c cs =>
    rw [documentLines, hcut]
    · simp only [htabs]
      rfl
    · exact hne

/-- The lines in front of the delimiter are the document, in front of an arbitrary rest. -/
theorem documentLines_append (htabs : d.dropTabs = false)
    (h : ∀ line ∈ lines, '\n' ∉ line ∧ line ≠ d.delimiter.toList) (rest : List Char) :
    documentLines d (lines.length + fuel) (lines.flatMap (· ++ ['\n']) ++ rest) =
      (lines.flatMap (· ++ ['\n']) ++ (documentLines d fuel rest).1,
        (documentLines d fuel rest).2) := by
  induction lines with
  | nil => rw [List.length_nil, Nat.zero_add]; rfl
  | cons line lines ih =>
    obtain ⟨⟨hline, hdelimiter⟩, hlines⟩ := List.forall_mem_cons.mp h
    have hfuel : (line :: lines).length + fuel = lines.length + fuel + 1 := by
      rw [List.length_cons]
      omega
    have htext : (line :: lines).flatMap (· ++ ['\n']) ++ rest =
        line ++ '\n' :: (lines.flatMap (· ++ ['\n']) ++ rest) := by
      simp
    rw [hfuel, htext, documentLines_eq htabs (by simp) (cutLine_append hline _),
      if_neg hdelimiter, ih hlines]
    simp

theorem length_le_length_flatMap (lines : List (List Char)) :
    lines.length ≤ (lines.flatMap (· ++ ['\n'])).length := by
  induction lines with
  | nil => exact Nat.le_refl _
  | cons line lines ih =>
    rw [List.flatMap_cons, List.length_append, List.length_append, List.length_cons,
      List.length_singleton]
    omega

/-- A document ends at the first line that is its delimiter. -/
theorem readDocument?_lines {cs : List Char} (htabs : d.dropTabs = false)
    (hquoted : d.quoted = true) (hne : cs ≠ [])
    (h : ∀ line ∈ lines, '\n' ∉ line ∧ line ≠ d.delimiter.toList)
    (hcut : cutLine cs = (d.delimiter.toList, rest)) :
    readDocument? d (lines.flatMap (· ++ ['\n']) ++ cs) =
      some ([.quoted (String.ofList (lines.flatMap (· ++ ['\n'])))], rest) := by
  have hlength : lines.length ≤ (lines.flatMap (· ++ ['\n']) ++ cs).length := by
    rw [List.length_append]
    exact Nat.le_add_right_of_le (length_le_length_flatMap lines)
  obtain ⟨fuel, hfuel⟩ := Nat.exists_eq_add_of_le hlength
  rw [readDocument?, hfuel, Nat.add_assoc, documentLines_append htabs h,
    documentLines_eq htabs hne hcut, if_pos rfl, List.append_nil]
  exact if_pos hquoted

theorem readDocuments?_singleton {cs : List Char} {doc : HereDocument}
    (h : readDocument? d cs = some (doc, rest)) :
    readDocuments? [d] cs = some ([doc], rest) := by
  simp [readDocuments?, h]

end Documents

/-! ## Tokens -/

section Tokens

variable {fuel : Nat} {pending : List PendingDocument} {cs rest : List Char} {ts : List Token}
  {docs : List HereDocument}

theorem tokensFrom_blank (h : tokensFrom fuel pending cs = (ts, docs)) :
    tokensFrom fuel pending (' ' :: cs) = (ts, docs) := by
  rw [← h]
  cases fuel with
  | zero => rfl
  | succ fuel => rw [tokensFrom, tokensFrom, skipBlanks]

/-- At the end of a line the documents are taken that are still to be taken. -/
theorem tokensFrom_lineEnd {taken : List HereDocument}
    (htaken : readDocuments? pending cs = some (taken, rest))
    (h : tokensFrom fuel [] rest = (ts, docs)) :
    tokensFrom (fuel + 1) pending ('\n' :: cs) = (.lineEnd :: ts, taken ++ docs) := by
  have hskip : skipBlanks ('\n' :: cs) = '\n' :: cs := by simp [skipBlanks]
  rw [tokensFrom, hskip]
  simp only [htaken, h]

/-- Neither a blank nor a remark nor the end of a line comes next. -/
structure IsTokenStart (cs : List Char) : Prop where
  skipBlanks_eq : skipBlanks cs = cs
  ne_nil : cs ≠ []
  not_lineEnd : ∀ rest, cs ≠ '\n' :: rest

theorem isTokenStart_quoteChars (cs rest : List Char) : IsTokenStart (quoteChars cs ++ rest) where
  skipBlanks_eq := rfl
  ne_nil := List.cons_ne_nil _ _
  not_lineEnd rest h := by simp [quoteChars] at h

theorem tokensFrom_redirection {channel : Option Nat} {s : String} (hstart : IsTokenStart cs)
    (hredirection : redirection? cs = some (channel, s, rest)) (hs : s ≠ "<<" ∧ s ≠ "<<-")
    (h : tokensFrom fuel pending rest = (ts, docs)) :
    tokensFrom (fuel + 1) pending cs = (.redirection channel s :: ts, docs) := by
  rw [tokensFrom, hstart.skipBlanks_eq]
  split
  · exact absurd rfl hstart.ne_nil
  · exact absurd rfl (hstart.not_lineEnd _)
  · simp [hredirection, hs, h]

/-- The word behind a redirection to a document is its delimiter, and the document is still to be
taken. -/
theorem tokensFrom_document {w : Word} {after : List Char} (hstart : IsTokenStart cs)
    (hredirection : redirection? cs = some (none, "<<", rest))
    (hw : readWord? (skipBlanks rest) = some (w, after))
    (h : tokensFrom fuel (pending ++ [⟨Word.literal w, false, Word.isQuoted w⟩]) after =
      (ts, docs)) :
    tokensFrom (fuel + 1) pending cs = (.redirection none "<<" :: .word w :: ts, docs) := by
  rw [tokensFrom, hstart.skipBlanks_eq]
  split
  · exact absurd rfl hstart.ne_nil
  · exact absurd rfl (hstart.not_lineEnd _)
  · simp [hredirection, hw, h]

theorem tokensFrom_operator {s : String} (hstart : IsTokenStart cs)
    (hredirection : redirection? cs = none) (hoperator : firstOf? cs operators = some (s, rest))
    (h : tokensFrom fuel pending rest = (ts, docs)) :
    tokensFrom (fuel + 1) pending cs = (.operator s :: ts, docs) := by
  rw [tokensFrom, hstart.skipBlanks_eq]
  split
  · exact absurd rfl hstart.ne_nil
  · exact absurd rfl (hstart.not_lineEnd _)
  · simp only [hredirection, hoperator, h]

theorem tokensFrom_word {w : Word} (hstart : IsTokenStart cs)
    (hredirection : redirection? cs = none) (hoperator : firstOf? cs operators = none)
    (hw : readWord? cs = some (w, rest)) (h : tokensFrom fuel pending rest = (ts, docs)) :
    tokensFrom (fuel + 1) pending cs = (.word w :: ts, docs) := by
  rw [tokensFrom, hstart.skipBlanks_eq]
  split
  · exact absurd rfl hstart.ne_nil
  · exact absurd rfl (hstart.not_lineEnd _)
  · simp only [hredirection, hoperator, hw, h]

theorem tokensFrom_quoteChars (hrest : WordEnd.word.isAt rest = true)
    (h : tokensFrom fuel pending rest = (ts, docs)) :
    tokensFrom (fuel + 1) pending (quoteChars cs ++ rest) = (.word (quotedWord cs) :: ts, docs) :=
  tokensFrom_word (isTokenStart_quoteChars cs rest) rfl rfl (readWord?_quoteChars cs hrest) h

end Tokens

end NetworkCompiler.Shell
