import NetworkCompiler.Proofs.Lists
import NetworkCompiler.Proofs.Shell.FileWriting
import NetworkCompiler.Proofs.Shell.WordReading
import NetworkCompiler.Shell.Remote

/-!
# Quoted texts among words

A line of words is read as its words (`IsLineOf.tokens_eq`) : each of its texts is one word in front
of a blank (`IsWordText`), and so in front of the rest of the line, and begins no redirection and no
operator. A quoted text is such a text (`isWordText_quoteChars`), and its word stands for it and for
nothing else, as all of it is quoted. `quoted_is_one_word` says both, and what it means for a script
that is handed to a remote shell : the command line is the three words that run it
(`isReadAsWords_command`).
-/

namespace NetworkCompiler.Shell

/-! ## Texts of words -/

/-- A blank between two words of a line. -/
def isGap (c : Char) : Bool :=
  c = ' ' || c = '\t'

/-- A text that is empty or begins with a blank. -/
def StandsApart (cs : List Char) : Prop :=
  ∀ c ∈ cs.head?, isGap c = true

/-- A text that is one word, at the end of a line and in front of every blank. -/
structure IsWordText (cs : List Char) (w : Word) : Prop where
  start : IsTokenStart cs
  at_end : readWord? cs = some (w, [])
  at_gap : ∀ c, isGap c = true → readWord? (cs ++ [c]) = some (w, [c])

section WordTexts

variable {c : Char} {cs rest : List Char} {w : Word} {ss : List String}

theorem isAt_of_standsApart (h : StandsApart rest) : WordEnd.word.isAt rest = true := by
  cases rest with
  | nil => rfl
  | cons c rest =>
    have hc : isGap c = true := h c rfl
    simp only [isGap, Bool.or_eq_true, decide_eq_true_eq] at hc
    rcases hc with rfl | rfl <;> rfl

/-- A word is read in front of a blank, whatever stands behind the blank. -/
theorem IsWordText.readWord?_eq (h : IsWordText cs w) (hrest : StandsApart rest) :
    readWord? (cs ++ rest) = some (w, rest) := by
  cases rest with
  | nil => simpa using h.at_end
  | cons c rest =>
    have hread := readWord?_append (h.at_gap c (hrest c rfl)) (List.cons_ne_nil _ _) rest
    simpa using hread

theorem length_skipBlanks_le (cs : List Char) : (skipBlanks cs).length ≤ cs.length := by
  fun_induction skipBlanks cs with
  | case1 cs ih => exact Nat.le_succ_of_le ih
  | case2 cs ih => exact Nat.le_succ_of_le ih
  | case3 cs ih => exact Nat.le_succ_of_le (Nat.le_succ_of_le ih)
  | case4 cs => exact Nat.le_succ_of_le (List.dropWhile_suffix _).length_le
  | case5 => exact Nat.le_refl _

/-- A text is left as it is by what skips blanks if no blank, no remark and no continued line begins
it. -/
theorem skipBlanks_eq_self {c : Char} {cs : List Char} : skipBlanks (c :: cs) = c :: cs ↔
    c ≠ ' ' ∧ c ≠ '\t' ∧ c ≠ '#' ∧ ∀ rest, c :: cs ≠ '\\' :: '\n' :: rest := by
  have hshort : ∀ ds : List Char, ds.length < (c :: cs).length → skipBlanks ds ≠ c :: cs :=
    fun ds hds heq => absurd (length_skipBlanks_le ds) (by rw [heq]; omega)
  constructor
  · refine fun h => ⟨?_, ?_, ?_, ?_⟩
    · rintro rfl
      exact hshort cs (by simp) (by rwa [skipBlanks] at h)
    · rintro rfl
      exact hshort cs (by simp) (by rwa [skipBlanks] at h)
    · rintro rfl
      have hlength := (List.dropWhile_suffix (l := cs) fun c => decide (c ≠ '\n')).length_le
      rw [skipBlanks] at h
      rw [h, List.length_cons] at hlength
      omega
    · intro rest heq
      refine hshort rest (by rw [heq, List.length_cons, List.length_cons]; omega) ?_
      rw [heq, skipBlanks] at h
      rw [h, heq]
  · rintro ⟨hspace, htab, hhash, hline⟩
    rw [skipBlanks]
    · simpa using hspace
    · simpa using htab
    · exact hline
    · simpa using hhash

theorem isTokenStart_append (h : IsTokenStart cs) (hrest : StandsApart rest) :
    IsTokenStart (cs ++ rest) := by
  obtain ⟨c, cs, rfl⟩ := List.exists_cons_of_ne_nil h.ne_nil
  obtain ⟨hspace, htab, hhash, hline⟩ := skipBlanks_eq_self.mp h.skipBlanks_eq
  refine ⟨skipBlanks_eq_self.mpr ⟨hspace, htab, hhash, fun rest' heq => ?_⟩, by simp, ?_⟩
  · obtain ⟨rfl, htail⟩ := List.cons.inj heq
    cases cs with
    | nil =>
      have hgap : isGap '\n' = true := hrest '\n' (by simp [show rest = '\n' :: rest' from htail])
      exact absurd hgap (by decide)
    | cons d cs =>
      obtain ⟨rfl, -⟩ := List.cons.inj htail
      exact hline cs rfl
  · intro rest' heq
    obtain ⟨rfl, -⟩ := List.cons.inj heq
    exact h.not_lineEnd cs rfl

theorem firstOf?_eq_none (h : ∀ s ∈ ss, s.toList.head? ≠ none ∧ s.toList.head? ≠ cs.head?) :
    firstOf? cs ss = none := by
  induction ss with
  | nil => rfl
  | cons s ss ih =>
    obtain ⟨⟨hne, hhead⟩, hss⟩ := List.forall_mem_cons.mp h
    have hafter : Text.Chars.after? s.toList cs = none := by
      cases hs : s.toList with
      | nil => simp [hs] at hne
      | cons d ds =>
        cases cs with
        | nil => rfl
        | cons c cs =>
          rw [hs] at hhead
          rw [Text.Chars.after?, if_neg (by simpa using hhead)]
    rw [firstOf?, hafter, ih hss]

/-- No word begins with a character that ends one. -/
theorem IsWordText.exists_cons (h : IsWordText cs w) :
    ∃ c cs', cs = c :: cs' ∧ endsWord c = false := by
  obtain ⟨c, cs, rfl⟩ := List.exists_cons_of_ne_nil h.start.ne_nil
  refine ⟨c, cs, rfl, Bool.eq_false_iff.mpr fun hc => ?_⟩
  have hat : WordEnd.word.isAt (c :: cs) = true := hc
  have hread := h.at_end
  rw [readWord?, parts?_of_isAt hat] at hread
  cases hread

theorem IsWordText.firstOf?_operators (h : IsWordText cs w) (rest : List Char) :
    firstOf? (cs ++ rest) operators = none := by
  obtain ⟨c, cs, rfl, hc⟩ := h.exists_cons
  have hoperators : ∀ s ∈ operators, s.toList.head?.map endsWord = some true := by decide
  refine firstOf?_eq_none fun s hs => ⟨fun hnone => ?_, fun hhead => ?_⟩
  · simpa [hnone] using hoperators s hs
  · simpa [hhead, hc] using hoperators s hs

theorem firstOf?_redirections (hless : cs.head? ≠ some '<') (hgreater : cs.head? ≠ some '>') :
    firstOf? cs redirections = none := by
  have hredirections : ∀ s ∈ redirections,
      s.toList.head? = some '<' ∨ s.toList.head? = some '>' := by decide
  refine firstOf?_eq_none fun s hs => ?_
  rcases hredirections s hs with hhead | hhead
  · exact ⟨by simp [hhead], hhead ▸ hless.symm⟩
  · exact ⟨by simp [hhead], hhead ▸ hgreater.symm⟩

theorem redirection?_cons (c : Char) (cs : List Char) : redirection? (c :: cs) =
    (firstOf? (if (Text.Chars.digit? c).isSome then cs else c :: cs) redirections).map
      fun (s, rest) => (Text.Chars.digit? c, s, rest) :=
  rfl

theorem isPlainWordChar_of_digit? (h : (Text.Chars.digit? c).isSome = true) :
    isPlainWordChar c = true := by
  have hnone : ∀ d ∈ [' ', '\t', '\n', ';', '&', '|', '<', '>', '(', ')'] ++
      ['\\', '`', '$', '\'', '"'], Text.Chars.digit? d = none := by simp [Text.Chars.digit?]
  simp only [List.forall_mem_append] at hnone
  have hends : endsWord c = false := decide_eq_false fun hmem => by simp [hnone.1 c hmem] at h
  have hspecial : c ∉ ['\\', '`', '$', '\'', '"'] := fun hmem => by simp [hnone.2 c hmem] at h
  simp [isPlainWordChar, hends, hspecial]

/-- Behind a plain character a word goes on, or a blank or the end of the line comes. -/
theorem IsWordText.head?_ne (h : IsWordText (c :: cs) w) (hc : isPlainWordChar c = true)
    (hrest : StandsApart rest) {d : Char} (hgap : isGap d = false) (hd : endsWord d = true) :
    (cs ++ rest).head? ≠ some d := by
  cases cs with
  | nil =>
    intro hhead
    simp [hrest d hhead] at hgap
  | cons e cs =>
    rw [List.cons_append, List.head?_cons, Ne, Option.some.injEq]
    rintro rfl
    have hread : readWord? ([c] ++ e :: cs) = some ([.text (String.ofList [c])], e :: cs) :=
      readWord?_of_plain (by simp) (by simp [hc]) hd
    rw [List.singleton_append, h.at_end] at hread
    cases hread

theorem IsWordText.redirection?_eq (h : IsWordText cs w) (hrest : StandsApart rest) :
    redirection? (cs ++ rest) = none := by
  obtain ⟨c, cs, rfl, hc⟩ := h.exists_cons
  have hfirst : ∀ d, endsWord d = true → c ≠ d := by
    rintro d hd rfl
    simp [hc] at hd
  rw [List.cons_append, redirection?_cons, Option.map_eq_none_iff]
  split
  · next hdigit =>
    have hplain := isPlainWordChar_of_digit? hdigit
    exact firstOf?_redirections (h.head?_ne hplain hrest (by decide) rfl)
      (h.head?_ne hplain hrest (by decide) rfl)
  · exact firstOf?_redirections (by simpa using hfirst '<' rfl) (by simpa using hfirst '>' rfl)

theorem isWordText_quoteChars (cs : List Char) : IsWordText (quoteChars cs) (quotedWord cs) where
  start := by simpa using isTokenStart_quoteChars cs []
  at_end := by
    have hread : readWord? (quoteChars cs ++ []) = some (quotedWord cs, []) :=
      readWord?_quoteChars cs rfl
    rwa [List.append_nil] at hread
  at_gap c hc := readWord?_quoteChars cs (isAt_of_standsApart (by simpa [StandsApart] using hc))

/-- Plain characters are a word, unless they begin a remark. -/
theorem isWordText_of_plain {cs : List Char} (hne : cs ≠ []) (hhash : cs.head? ≠ some '#')
    (h : cs.all isPlainWordChar = true) : IsWordText cs [.text (String.ofList cs)] where
  start := by
    obtain ⟨c, cs, rfl⟩ := List.exists_cons_of_ne_nil hne
    have hc : isPlainWordChar c = true := List.all_eq_true.mp h c List.mem_cons_self
    have hother : ∀ d, isPlainWordChar d = false → c ≠ d := by
      rintro d hd rfl
      simp [hc] at hd
    refine ⟨skipBlanks_eq_self.mpr ⟨hother ' ' rfl, hother '\t' rfl, ?_, ?_⟩, hne, ?_⟩
    · simpa using hhash
    · intro rest heq
      exact hother '\\' rfl (List.cons.inj heq).1
    · intro rest heq
      exact hother '\n' rfl (List.cons.inj heq).1
  at_end := by
    have hread : readWord? (cs ++ []) = some ([.text (String.ofList cs)], []) :=
      readWord?_of_plain hne h rfl
    rwa [List.append_nil] at hread
  at_gap c hc := readWord?_of_plain hne h (isAt_of_standsApart (by simpa [StandsApart] using hc))

/-- A word with an expansion in it is a word like every other. -/
example : IsWordText ['"', '$', 'H', 'O', 'M', 'E', '"']
    [.together [.parameter "HOME" .value []]] where
  start := ⟨rfl, by simp, by simp⟩
  at_end := rfl
  at_gap c hc := by
    simp only [isGap, Bool.or_eq_true, decide_eq_true_eq] at hc
    rcases hc with rfl | rfl <;> rfl

end WordTexts

/-! ## Lines of words -/

/-- A line of texts with blanks between them, and perhaps around them. -/
inductive IsLineOf : List (List Char) → List Char → Prop where
  | nil : IsLineOf [] []
  | gap {c : Char} {texts : List (List Char)} {cs : List Char} : isGap c = true →
      IsLineOf texts cs → IsLineOf texts (c :: cs)
  | text {text rest : List Char} {texts : List (List Char)} : StandsApart rest →
      IsLineOf texts rest → IsLineOf (text :: texts) (text ++ rest)

section Lines

variable {cs : List Char} {texts : List (List Char)} {ws : List Word}

theorem tokensFrom_gap {c : Char} (hc : isGap c = true) (fuel : Nat)
    (pending : List PendingDocument) (cs : List Char) :
    tokensFrom fuel pending (c :: cs) = tokensFrom fuel pending cs := by
  simp only [isGap, Bool.or_eq_true, decide_eq_true_eq] at hc
  cases fuel with
  | zero => rfl
  | succ fuel => rcases hc with rfl | rfl <;> rw [tokensFrom, tokensFrom, skipBlanks]

theorem IsLineOf.tokensFrom_eq (h : IsLineOf texts cs) (hws : List.Forall₂ IsWordText texts ws)
    {fuel : Nat} (hfuel : texts.length < fuel) : tokensFrom fuel [] cs = (ws.map .word, []) := by
  induction h generalizing ws fuel with
  | nil =>
    cases hws
    obtain ⟨fuel, rfl⟩ := Nat.exists_eq_add_one_of_ne_zero (Nat.ne_zero_of_lt hfuel)
    rfl
  | gap hc _ ih => rw [tokensFrom_gap hc, ih hws hfuel]
  | text hrest _ ih =>
    obtain ⟨fuel, rfl⟩ := Nat.exists_eq_add_one_of_ne_zero (Nat.ne_zero_of_lt hfuel)
    cases hws with
    | cons hw hws =>
      exact tokensFrom_word (isTokenStart_append hw.start hrest) (hw.redirection?_eq hrest)
        (hw.firstOf?_operators _) (hw.readWord?_eq hrest)
        (ih hws (Nat.lt_of_succ_lt_succ hfuel))

theorem IsLineOf.length_le (h : IsLineOf texts cs) (hne : ∀ text ∈ texts, text ≠ []) :
    texts.length ≤ cs.length := by
  induction h with
  | nil => exact Nat.le_refl _
  | gap _ _ ih => exact Nat.le_succ_of_le (ih hne)
  | @text text rest texts _ _ ih =>
    obtain ⟨htext, htexts⟩ := List.forall_mem_cons.mp hne
    have hpos := List.length_pos_of_ne_nil htext
    have hrest := ih htexts
    rw [List.length_cons, List.length_append]
    omega

/-- A line of words is read as its words. -/
theorem IsLineOf.tokens_eq {line : String} (h : IsLineOf texts line.toList)
    (hws : List.Forall₂ IsWordText texts ws) : tokens line = (ws.map .word, []) := by
  have hne : ∀ text ∈ texts, text ≠ [] := fun text htext => by
    obtain ⟨w, -, hw⟩ := exists_of_mem_left hws htext
    exact hw.start.ne_nil
  exact h.tokensFrom_eq hws (Nat.lt_succ_of_le (h.length_le hne))

theorem isLineOf_intercalate (texts : List (List Char)) :
    IsLineOf texts ([' '].intercalate texts) := by
  induction texts with
  | nil => exact .nil
  | cons text texts ih =>
    cases texts with
    | nil =>
      have hline : IsLineOf [text] (text ++ []) := .text (by simp [StandsApart]) .nil
      simpa using hline
    | cons next texts =>
      rw [List.intercalate_cons_cons, List.append_assoc]
      exact .text (by simp [StandsApart, isGap]) (.gap rfl ih)

end Lines

/-! ## What words stand for -/

/-- A word stands for a text : whatever shell uses it, it is that text, and nothing else happens. -/
def StandsFor (w : Word) (s : String) : Prop :=
  ∀ capture p, (fieldsOf capture [w]).run p = (.ok [s], p)

/-- A line is read as words that stand for texts. -/
def IsReadAsWords (line : String) (texts : List String) : Prop :=
  ∃ ws : List Word, tokens line = (ws.map .word, []) ∧ List.Forall₂ StandsFor ws texts

theorem standsFor_quotedWord (cs : List Char) : StandsFor (quotedWord cs) (String.ofList cs) :=
  fun capture p => run_fieldsOf_quotedWord cs (by rw [fieldsOf]; rfl)

theorem standsFor_text {s : String} (hs : s.isEmpty = false) : StandsFor [.text s] s :=
  fun capture p => run_fieldsOf_text hs (by rw [fieldsOf]; rfl)

/-- The line that runs a script is read as its three words. -/
theorem isReadAsWords_command (script : String) :
    IsReadAsWords (Text.joinWith " " ["sh", "-c", quote script]) ["sh", "-c", script] := by
  refine ⟨[[.text "sh"], [.text "-c"], quotedWord script.toList], ?_, ?_⟩
  · have hline := isLineOf_intercalate (["sh", "-c", quote script].map String.toList)
    have hjoin : (Text.joinWith " " ["sh", "-c", quote script]).toList =
        [' '].intercalate (["sh", "-c", quote script].map String.toList) :=
      String.toList_intercalate
    rw [← hjoin] at hline
    refine IsLineOf.tokens_eq hline (.cons ?_ (.cons ?_ (.cons ?_ .nil)))
    · exact isWordText_of_plain (by decide) (by decide) (by decide)
    · exact isWordText_of_plain (by decide) (by decide) (by decide)
    · rw [quote, String.toList_ofList]
      exact isWordText_quoteChars script.toList
  · refine .cons (standsFor_text (by decide)) (.cons (standsFor_text (by decide)) (.cons ?_ .nil))
    have hscript := standsFor_quotedWord script.toList
    rwa [String.ofList_toList] at hscript

/-- The bytes of the line that runs a script are the line that runs the bytes of the script. -/
theorem byteText_command (script : String) :
    byteText (Text.joinWith " " ["sh", "-c", quote script]) =
      Text.joinWith " " ["sh", "-c", quote (byteText script)] := by
  have hline : ∀ s : String, (Text.joinWith " " ["sh", "-c", quote s]).toList =
      ['s', 'h', ' ', '-', 'c', ' '] ++ quoteChars s.toList := fun s => by
    rw [Text.joinWith, String.toList_intercalate]
    simp [quote, List.intercalate]
  rw [← String.toList_inj, toList_byteText, hline, hline, byteChars_append,
    byteChars_of_allAscii (by decide), byteChars_quoteChars, toList_byteText]

/-! ## Quoted texts -/

/-- A quoted text is one word that is quoted throughout and stands for the text, wherever it stands
in a line of words. So what a remote shell makes of the line it is given is three words, and the
third is the script, whether the line is taken as it is or as the row of its bytes. -/
theorem quoted_is_one_word :
    (∀ s : String, ∃ w : Word, (∀ p ∈ w, ∃ t, p = .quoted t) ∧ Word.literal w = s ∧
      StandsFor w s ∧ ∀ (before after : List (List Char)) (bs as : List Word) (line : String),
        List.Forall₂ IsWordText before bs → List.Forall₂ IsWordText after as →
        IsLineOf (before ++ (quote s).toList :: after) line.toList →
        tokens line = ((bs ++ w :: as).map .word, [])) ∧
    ∀ (r : RemoteHost) (script : String),
      let line := Text.joinWith " " ((r.arguments script).drop r.loginArguments.length)
      IsReadAsWords line ["sh", "-c", script] ∧
        IsReadAsWords (byteText line) ["sh", "-c", byteText script] := by
  constructor
  · intro s
    refine ⟨quotedWord s.toList, fun p hp => ?_, ?_, ?_,
      fun before after bs as line hbs has hline => ?_⟩
    · obtain ⟨piece, -, rfl⟩ := List.mem_map.mp hp
      exact ⟨_, rfl⟩
    · rw [literal_quotedWord, String.ofList_toList]
    · have hstands := standsFor_quotedWord s.toList
      rwa [String.ofList_toList] at hstands
    · refine hline.tokens_eq (List.rel_append hbs (.cons ?_ has))
      rw [quote, String.toList_ofList]
      exact isWordText_quoteChars s.toList
  · intro r script line
    have harguments : (r.arguments script).drop r.loginArguments.length =
        ["sh", "-c", quote script] := List.drop_left
    have hline : line = Text.joinWith " " ["sh", "-c", quote script] :=
      congrArg (Text.joinWith " ") harguments
    rw [hline, byteText_command]
    exact ⟨isReadAsWords_command script, isReadAsWords_command (byteText script)⟩

/-- An apostrophe and a dollar sign between two words. -/
theorem quoted_is_one_word_home :
    let line := "echo 'it'\\''s $HOME' ok"
    List.Forall₂ IsWordText [['e', 'c', 'h', 'o']] [[.text "echo"]] ∧
      List.Forall₂ IsWordText [['o', 'k']] [[.text "ok"]] ∧
      IsLineOf ([['e', 'c', 'h', 'o']] ++ (quote "it's $HOME").toList :: [['o', 'k']]) line.toList ∧
      ∃ w, StandsFor w "it's $HOME" ∧
        tokens line = ([.word [.text "echo"], .word w, .word [.text "ok"]], []) := by
  intro line
  have hecho : List.Forall₂ IsWordText [['e', 'c', 'h', 'o']] [[.text "echo"]] :=
    .cons (isWordText_of_plain (by decide) (by decide) (by decide)) .nil
  have hok : List.Forall₂ IsWordText [['o', 'k']] [[.text "ok"]] :=
    .cons (isWordText_of_plain (by decide) (by decide) (by decide)) .nil
  have hjoin : line.toList = [' '].intercalate
      ([['e', 'c', 'h', 'o']] ++ (quote "it's $HOME").toList :: [['o', 'k']]) := by decide
  have hline := hjoin ▸ isLineOf_intercalate _
  obtain ⟨w, -, -, hstands, htokens⟩ := quoted_is_one_word.1 "it's $HOME"
  exact ⟨hecho, hok, hline, w, hstands, htokens _ _ _ _ line hecho hok hline⟩

end NetworkCompiler.Shell
