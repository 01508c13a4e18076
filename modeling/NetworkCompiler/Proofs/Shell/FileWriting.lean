import NetworkCompiler.Proofs.Shell.Steps
import NetworkCompiler.Proofs.Text.Lines
import NetworkCompiler.Proofs.Text.Reading
import NetworkCompiler.Shell.Interpreter

/-!
# Writing files

A shell takes a text as the row of its bytes (`byteText`), with a character for each byte. The
characters of ASCII stand for themselves, and no byte of another character is one of them
(`not_isAscii_of_mem_charBytes`). So quotes and line ends are where they were in the text
(`byteChars_quoteChars`, `splitAt_byteChars`), and the bytes are got back (`toBytes_ofBytes`).

The command that writes a file makes a directory and copies the lines behind it to the file, up to a
delimiter. A shell reads nothing but these two commands and writes exactly the lines, if and only if
none of them is the delimiter (`isReadAs_writing_iff`, `run_writing`).
-/

namespace NetworkCompiler.Shell

open Text.Chars (flatMap_splitAt not_mem_of_mem_splitAt splitAt splitAt_append_cons splitAt_cons
  splitAt_ne_nil)

/-! ## Texts as rows of bytes -/

/-- A text as a shell takes it. -/
def byteText (s : String) : String :=
  ofBytes s.toUTF8

/-- The characters that stand for the bytes of a character. -/
def charBytes (c : Char) : List Char :=
  (String.utf8EncodeChar c).map fun b => Char.ofNat b.toNat

/-- The characters that stand for the bytes of a text. -/
def byteChars (cs : List Char) : List Char :=
  cs.flatMap charBytes

theorem toList_byteText (s : String) : (byteText s).toList = byteChars s.toList := by
  rw [byteText, ofBytes, String.toList_ofList, toList_toUTF8, List.map_flatMap]
  rfl

/-- The bytes of a text are got back. -/
theorem toBytes_ofBytes (bytes : ByteArray) : toBytes (ofBytes bytes) = bytes := by
  have hbyte : ∀ b : UInt8, UInt8.ofNat (Char.ofNat b.toNat).toNat = b := fun b => by
    rw [toNat_ofNat_octet, UInt8.ofNat_toNat]
  rw [toBytes, ofBytes, String.toList_ofList, List.map_map, toList_eq_data]
  simp [Function.comp_def, hbyte]

/-! ## Characters of ASCII -/

/-- A character of ASCII. -/
def IsAscii (c : Char) : Prop :=
  c.toNat < 128

instance (c : Char) : Decidable (IsAscii c) :=
  inferInstanceAs (Decidable (c.toNat < 128))

/-- A text of ASCII. -/
def AllAscii (cs : List Char) : Prop :=
  ∀ c ∈ cs, IsAscii c

instance (cs : List Char) : Decidable (AllAscii cs) :=
  List.decidableBAll IsAscii cs

theorem charBytes_of_isAscii {c : Char} (h : IsAscii c) : charBytes c = [c] := by
  have hlt : c.toNat < 256 := Nat.lt_trans h (by decide)
  rw [charBytes, utf8EncodeChar_of_lt h, List.map_singleton, UInt8.toNat_ofNat',
    Nat.mod_eq_of_lt hlt, Char.ofNat_toNat]

theorem not_isAscii_of_mem_charBytes {c d : Char} (h : ¬ IsAscii c) (hd : d ∈ charBytes c) :
    ¬ IsAscii d := by
  rw [charBytes, List.mem_map] at hd
  obtain ⟨b, hb, rfl⟩ := hd
  rw [IsAscii, toNat_ofNat_octet]
  exact Nat.not_lt.mpr (le_toNat_of_mem_utf8EncodeChar (Nat.le_of_not_lt h) hb)

theorem charBytes_ne_nil (c : Char) : charBytes c ≠ [] := by
  rw [charBytes, Ne, List.map_eq_nil_iff]
  exact String.utf8EncodeChar_ne_nil

/-- A character of ASCII is found among the bytes of a text only where it stands in the text. -/
theorem mem_charBytes_iff {c d : Char} (hd : IsAscii d) : d ∈ charBytes c ↔ c = d := by
  constructor
  · intro h
    by_cases hc : IsAscii c
    · rw [charBytes_of_isAscii hc, List.mem_singleton] at h
      exact h.symm
    · exact absurd hd (not_isAscii_of_mem_charBytes hc h)
  · rintro rfl
    rw [charBytes_of_isAscii hd]
    exact List.mem_singleton_self _

theorem byteChars_cons (c : Char) (cs : List Char) :
    byteChars (c :: cs) = charBytes c ++ byteChars cs :=
  List.flatMap_cons

theorem byteChars_append (cs ds : List Char) :
    byteChars (cs ++ ds) = byteChars cs ++ byteChars ds :=
  List.flatMap_append

theorem byteChars_of_allAscii {cs : List Char} (h : AllAscii cs) : byteChars cs = cs := by
  induction cs with
  | nil => rfl
  | cons c cs ih =>
    obtain ⟨hc, hcs⟩ := List.forall_mem_cons.mp h
    rw [byteChars_cons, charBytes_of_isAscii hc, ih hcs]
    rfl

/-- Only a text itself is taken as a text of ASCII. -/
theorem eq_of_byteChars_eq {cs ds : List Char} (hds : AllAscii ds)
    (h : byteChars cs = ds) : cs = ds := by
  have hcs : AllAscii cs := by
    intro c hc
    by_contra hascii
    obtain ⟨d, hd⟩ := List.exists_mem_of_ne_nil _ (charBytes_ne_nil c)
    have hmem : d ∈ ds := h ▸ List.mem_flatMap.mpr ⟨c, hc, hd⟩
    exact not_isAscii_of_mem_charBytes hascii hd (hds d hmem)
  rw [← h, byteChars_of_allAscii hcs]

/-! ## Quotes and line ends -/

theorem quoteBody_append (cs ds : List Char) :
    quoteBody (cs ++ ds) = quoteBody cs ++ quoteBody ds := by
  induction cs with
  | nil => rfl
  | cons c cs ih =>
    rw [List.cons_append, quoteBody, quoteBody, ih]
    split <;> rfl

theorem quoteBody_of_not_mem {cs : List Char} (h : '\'' ∉ cs) : quoteBody cs = cs := by
  induction cs with
  | nil => rfl
  | cons c cs ih =>
    rw [List.mem_cons, not_or] at h
    rw [quoteBody, if_neg (Ne.symm h.1), ih h.2]

theorem byteChars_quoteBody (cs : List Char) :
    byteChars (quoteBody cs) = quoteBody (byteChars cs) := by
  have hescape : AllAscii ['\'', '\\', '\'', '\''] := by decide
  induction cs with
  | nil => rfl
  | cons c cs ih =>
    by_cases hc : c = '\''
    · subst hc
      have happend : quoteBody ('\'' :: cs) = ['\'', '\\', '\'', '\''] ++ quoteBody cs := rfl
      rw [happend, byteChars_append, byteChars_of_allAscii hescape, ih, byteChars_cons,
        charBytes_of_isAscii (by decide)]
      rfl
    · have hquote : '\'' ∉ charBytes c := fun h => hc ((mem_charBytes_iff (by decide)).mp h)
      rw [quoteBody, if_neg hc, byteChars_cons, ih, byteChars_cons, quoteBody_append,
        quoteBody_of_not_mem hquote]

theorem byteChars_quoteChars (cs : List Char) :
    byteChars (quoteChars cs) = quoteChars (byteChars cs) := by
  have hquote : charBytes '\'' = ['\''] := charBytes_of_isAscii (by decide)
  rw [quoteChars, byteChars_cons, byteChars_append, byteChars_quoteBody, byteChars_cons, hquote]
  rfl

theorem splitAt_append_of_not_mem {sep : Char} {cs : List Char} (h : sep ∉ cs)
    (rest : List Char) : splitAt sep (cs ++ rest) =
      (cs ++ (splitAt sep rest).headD []) :: (splitAt sep rest).tail := by
  induction cs with
  | nil =>
    cases hpieces : splitAt sep rest with
    | nil => exact absurd hpieces (splitAt_ne_nil sep rest)
    | cons piece pieces =>
      rw [List.nil_append, hpieces]
      rfl
  | cons c cs ih =>
    rw [List.mem_cons, not_or] at h
    rw [List.cons_append, splitAt_cons, if_neg (Ne.symm h.1), ih h.2]
    rfl

/-- A text and its bytes are cut at the same places. -/
theorem splitAt_byteChars {sep : Char} (h : IsAscii sep) (cs : List Char) :
    splitAt sep (byteChars cs) = (splitAt sep cs).map byteChars := by
  induction cs with
  | nil => rfl
  | cons c cs ih =>
    rw [byteChars_cons, splitAt_cons]
    by_cases hc : c = sep
    · subst hc
      rw [charBytes_of_isAscii h, List.singleton_append, splitAt_cons, if_pos rfl, if_pos rfl, ih,
        List.map_cons]
      rfl
    · have hmem : sep ∉ charBytes c := fun hmem => hc ((mem_charBytes_iff h).mp hmem)
      rw [if_neg hc, splitAt_append_of_not_mem hmem, ih, List.map_cons, byteChars_cons]
      cases splitAt sep cs <;> rfl

open Run

/-! ## Reading -/

section Reading

variable {directory path delimiter cs rest : List Char} {fuel : Nat} {ts : List Token}
  {doc : HereDocument} {docs : List HereDocument}

/-- The command, in front of the lines. -/
def writingChars (directory path delimiter rest : List Char) : List Char :=
  ['m', 'k', 'd', 'i', 'r'] ++ ' ' :: (['-', 'p'] ++ ' ' :: (quoteChars directory ++ ' ' ::
    '&' :: '&' :: ' ' :: (['c', 'a', 't'] ++ ' ' :: '>' :: ' ' :: (quoteChars path ++ ' ' ::
      '<' :: '<' :: (quoteChars delimiter ++ '\n' :: rest)))))

/-- The words and operators of the command. -/
def writingTokens (directory path delimiter : Word) : List Token :=
  [.word [.text "mkdir"], .word [.text "-p"], .word directory, .operator "&&",
    .word [.text "cat"], .redirection none ">", .word path, .redirection none "<<",
    .word delimiter]

/-- What the command says. -/
def writing (directory path content : Word) : Statement :=
  .both (.simple [] [[.text "mkdir"], [.text "-p"], directory] [])
    (.simple [] [[.text "cat"]] [⟨1, .write, path⟩, ⟨0, .document, content⟩])

theorem writing_inj {d d' p p' c c' : Word} :
    writing d p c = writing d' p' c' ↔ d = d' ∧ p = p' ∧ c = c' := by
  simp [writing]

/-- The document that a quoted delimiter asks for. -/
def quotedDocument (delimiter : List Char) : PendingDocument where
  delimiter := Word.literal (quotedWord delimiter)
  dropTabs := false
  quoted := Word.isQuoted (quotedWord delimiter)

theorem toList_delimiter_quotedDocument (delimiter : List Char) :
    (quotedDocument delimiter).delimiter.toList = delimiter := by
  rw [quotedDocument, literal_quotedWord, String.toList_ofList]

theorem quoted_quotedDocument (delimiter : List Char) :
    (quotedDocument delimiter).quoted = true := by
  cases hpieces : quotedPieces delimiter with
  | nil => exact absurd hpieces (quotedPieces_ne_nil delimiter)
  | cons piece pieces =>
    rw [quotedDocument, quotedWord, hpieces]
    rfl

theorem tokensFrom_writingChars {tail : List Char}
    (hdoc : readDocument? (quotedDocument delimiter) tail = some (doc, rest))
    (h : tokensFrom fuel [] rest = (ts, docs)) :
    tokensFrom (fuel + 9) [] (writingChars directory path delimiter tail) =
      (writingTokens (quotedWord directory) (quotedWord path) (quotedWord delimiter) ++
          .lineEnd :: ts, doc :: docs) := by
  rw [writingChars]
  refine tokensFrom_word ⟨rfl, by simp, by simp⟩ rfl rfl
    (readWord?_of_plain (by simp) (by decide) rfl) <| tokensFrom_blank ?_
  refine tokensFrom_word ⟨rfl, by simp, by simp⟩ rfl rfl
    (readWord?_of_plain (by simp) (by decide) rfl) <| tokensFrom_blank ?_
  refine tokensFrom_quoteChars rfl <| tokensFrom_blank ?_
  refine tokensFrom_operator ⟨rfl, by simp, by simp⟩ rfl rfl <| tokensFrom_blank ?_
  refine tokensFrom_word ⟨rfl, by simp, by simp⟩ rfl rfl
    (readWord?_of_plain (by simp) (by decide) rfl) <| tokensFrom_blank ?_
  refine tokensFrom_redirection ⟨rfl, by simp, by simp⟩ rfl (by decide) <| tokensFrom_blank ?_
  refine tokensFrom_quoteChars rfl <| tokensFrom_blank ?_
  refine tokensFrom_document ⟨rfl, by simp, by simp⟩ rfl (readWord?_quoteChars delimiter rfl) ?_
  exact tokensFrom_lineEnd (readDocuments?_singleton hdoc) h

theorem readLine?_writingTokens (directory path delimiter : Word) (doc : HereDocument)
    (ts : List Token) (docs : List HereDocument) :
    readLine? ⟨writingTokens directory path delimiter ++ .lineEnd :: ts, doc :: docs⟩ =
      some (some (writing directory path doc, ⟨.lineEnd :: ts, docs⟩)) := by
  have hfuel : 12 * (writingTokens directory path delimiter ++ .lineEnd :: ts).length + 12 =
      12 * ts.length + 132 := by
    simp only [writingTokens, List.length_append, List.length_cons, List.length_nil]
    omega
  rw [readLine?]
  dsimp only
  rw [hfuel]
  rfl

/-- The command is read with the lines up to the delimiter, and what follows them is left. -/
theorem readLine?_writingChars {text : String} {tail : List Char}
    (htext : text.toList = writingChars directory path delimiter tail)
    (hdoc : readDocument? (quotedDocument delimiter) tail = some (doc, rest)) :
    ∃ fuel, readLine? ⟨(tokens text).1, (tokens text).2⟩ =
      some (some (writing (quotedWord directory) (quotedWord path) doc,
        ⟨.lineEnd :: (tokensFrom (fuel + 1) [] rest).1, (tokensFrom (fuel + 1) [] rest).2⟩)) := by
  have hlength : 9 + 1 ≤ text.toList.length + 1 := by
    rw [htext, writingChars, List.length_append, List.length_cons]
    simp only [List.length_append, List.length_cons]
    omega
  obtain ⟨fuel, hfuel⟩ := Nat.exists_eq_add_of_le hlength
  have htokens : tokens text = tokensFrom (fuel + 1 + 9) [] text.toList := by
    rw [tokens, hfuel]
    congr 1
    omega
  refine ⟨fuel, ?_⟩
  rw [htokens, htext, tokensFrom_writingChars hdoc rfl, readLine?_writingTokens]

/-- The lines are copied to the last one exactly if none of them is the delimiter. -/
theorem isReadAs_writing_iff {text : String} (hne : delimiter ≠ []) (hline : '\n' ∉ delimiter)
    (htext : text.toList = writingChars directory path delimiter (cs ++ '\n' :: delimiter)) :
    IsReadAs text (writing (quotedWord directory) (quotedWord path)
        [.quoted (String.ofList (cs ++ ['\n']))]) ↔ delimiter ∉ splitAt '\n' cs := by
  have hdelimiter := toList_delimiter_quotedDocument delimiter
  have hquoted := quoted_quotedDocument delimiter
  constructor
  · rintro ⟨rest, hread, -⟩ hmem
    -- the document ends at the first of the lines that is the delimiter
    obtain ⟨before, after, hlines, hbefore⟩ := List.eq_append_cons_of_mem hmem
    have hcs : cs ++ ['\n'] = before.flatMap (· ++ ['\n']) ++
        (delimiter ++ '\n' :: after.flatMap (· ++ ['\n'])) := by
      rw [← flatMap_splitAt, hlines, List.flatMap_append, List.flatMap_cons]
      simp
    have htail : cs ++ '\n' :: delimiter = before.flatMap (· ++ ['\n']) ++
        (delimiter ++ '\n' :: (after.flatMap (· ++ ['\n']) ++ delimiter)) := by
      rw [← List.singleton_append, ← List.append_assoc, hcs]
      simp
    have hdoc : readDocument? (quotedDocument delimiter) (cs ++ '\n' :: delimiter) =
        some ([.quoted (String.ofList (before.flatMap (· ++ ['\n'])))],
          after.flatMap (· ++ ['\n']) ++ delimiter) := by
      rw [htail]
      refine readDocument?_lines rfl hquoted (by simp [hne]) (fun line hmemLine => ?_) ?_
      · rw [hdelimiter]
        have hsplit : line ∈ splitAt '\n' cs := hlines ▸ List.mem_append_left _ hmemLine
        exact ⟨not_mem_of_mem_splitAt hsplit, fun h => hbefore (h ▸ hmemLine)⟩
      · rw [hdelimiter, cutLine_append hline]
    obtain ⟨fuel, hread'⟩ := readLine?_writingChars htext hdoc
    rw [hread] at hread'
    have hstatement := (Prod.mk.inj (Option.some.inj (Option.some.inj hread'))).1
    have hcontent : cs ++ ['\n'] = before.flatMap (· ++ ['\n']) := by
      have hpart := List.singleton_inj.mp (writing_inj.mp hstatement).2.2
      exact String.ofList_injective (WordPart.quoted.inj hpart)
    rw [hcs, List.append_right_eq_self] at hcontent
    exact absurd hcontent (by simp)
  · intro hmem
    have hdoc : readDocument? (quotedDocument delimiter) (cs ++ '\n' :: delimiter) =
        some ([.quoted (String.ofList (cs ++ ['\n']))], []) := by
      have hlines : ∀ line ∈ splitAt '\n' cs,
          '\n' ∉ line ∧ line ≠ (quotedDocument delimiter).delimiter.toList := by
        intro line hmemLine
        rw [hdelimiter]
        exact ⟨not_mem_of_mem_splitAt hmemLine, fun h => hmem (h ▸ hmemLine)⟩
      have hcut : cutLine delimiter = ((quotedDocument delimiter).delimiter.toList, []) := by
        rw [hdelimiter, cutLine_of_not_mem hline]
      have := readDocument?_lines rfl hquoted hne hlines hcut
      rwa [flatMap_splitAt, List.append_assoc, List.singleton_append] at this
    obtain ⟨fuel, hread⟩ := readLine?_writingChars htext hdoc
    exact ⟨_, hread, rfl⟩

end Reading

/-! ## Running -/

section Running

variable {fuel : Nat} {tested : Bool} {p q : Process} {target content : String}

theorem modify_push (xs : Array String) (s t : String) :
    (xs.push s).modify xs.size (fun _ => t) = xs.push t := by
  ext i hleft hright
  · simp
  · rw [Array.getElem_modify, Array.getElem_push, Array.getElem_push]
    by_cases hi : i < xs.size
    · rw [dif_pos hi, dif_pos hi, if_neg (by omega)]
    · rw [Array.size_push] at hright
      rw [dif_neg hi, dif_neg hi, if_pos (by omega)]

/-- What a shell is after it has written a text to a new file. -/
def wrote (p : Process) (target content : String) : Process :=
  { p with
    files := Dictionary.insert target content p.files
    sources := p.sources.push ""
    status := 0
    captured := none }

/-- A shell that reads a text and writes to a new file. -/
def copying (p : Process) (target content : String) : Process :=
  { p with
    files := Dictionary.insert target "" p.files
    sources := p.sources.push content
    channels := (0, .source p.sources.size) ::
      ((1, .file target) :: p.channels.filter (·.1 ≠ 1)).filter (·.1 ≠ 0) }

theorem run_redirections_copying (capture : String → Run String) {path : List Char}
    (hopen : ((openToWrite false (String.ofList path)).run p).1 = .ok (.file target)) :
    (List.forM [⟨1, .write, quotedWord path⟩, ⟨0, .document, [.quoted content]⟩]
      (redirect capture)).run p = (.ok (), copying p target content) := by
  have hpath : (textOf capture (quotedWord path)).run p = (.ok (String.ofList path), p) :=
    run_textOf_quotedWord path
  have hwrite := run_redirect_write 1 hpath hopen
  exact (run_bind_of_ok hwrite).trans (run_bind_of_ok (run_redirect_document capture 0 _ content))

theorem run_cat_copying (hlookup : p.functions.lookup "cat" = none) :
    (invoke (fuel + 1) tested true "cat" []).run (copying p target content) =
      (.ok (), { copying p target content with
        files := Dictionary.insert target content p.files
        sources := p.sources.push ""
        status := 0 }) := by
  have hlookup' : (copying p target content).functions.lookup "cat" = none := hlookup
  rw [run_cat hlookup' rfl rfl]
  simp [copying, Dictionary.insert_insert, modify_push]

/-- A document is copied to a new file. -/
theorem run_copyDocument (hlookup : p.functions.lookup "cat" = none) {path : List Char}
    (hopen : ((openToWrite false (String.ofList path)).run { p with captured := none }).1 =
      .ok (.file target)) :
    (command (fuel + 2) tested [] [[.text "cat"]]
      [⟨1, .write, quotedWord path⟩, ⟨0, .document, [.quoted content]⟩]).run p =
        (.ok (), wrote p target content) := by
  have hwords : (fieldsOf (capture (fuel + 1)) [[.text "cat"]]).run { p with captured := none } =
      (.ok ["cat"], { p with captured := none }) := by
    refine run_fieldsOf_text (by decide) ?_
    rw [fieldsOf]
    rfl
  exact run_command rfl hwords (run_redirections_copying _ hopen) (run_cat_copying hlookup)

/-- The command makes the directory and writes exactly the text to the file. -/
theorem run_writing {directory path : List Char}
    (hmkdir : (invoke (fuel + 1) true true "mkdir" ["-p", String.ofList directory]).run
      { p with captured := none } = (.ok (), q)) (hstatus : q.status = 0)
    (hlookup : q.functions.lookup "cat" = none)
    (hopen : ((openToWrite false (String.ofList path)).run
      { q with channels := p.channels, captured := none }).1 = .ok (.file target)) :
    (run (fuel + 4) tested
      (writing (quotedWord directory) (quotedWord path) [.quoted content])).run p =
        (.ok (), wrote { q with channels := p.channels } target content) := by
  have hwords : (fieldsOf (capture (fuel + 1))
      [[.text "mkdir"], [.text "-p"], quotedWord directory]).run { p with captured := none } =
        (.ok ["mkdir", "-p", String.ofList directory], { p with captured := none }) := by
    refine run_fieldsOf_text (by decide) <| run_fieldsOf_text (by decide) <|
      run_fieldsOf_quotedWord directory ?_
    rw [fieldsOf]
    rfl
  have hdirectory : (run (fuel + 3) true
      (.simple [] [[.text "mkdir"], [.text "-p"], quotedWord directory] [])).run p =
        (.ok (), { q with channels := p.channels }) :=
    run_simple (run_command rfl hwords rfl hmkdir) (.inl rfl)
  have hlookup' : ({ q with channels := p.channels } : Process).functions.lookup "cat" = none :=
    hlookup
  exact run_both hdirectory hstatus (run_simple (run_copyDocument hlookup' hopen) (.inr rfl))

end Running

end NetworkCompiler.Shell
