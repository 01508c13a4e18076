import Mathlib.Data.List.Chain
import NetworkCompiler.Network.Loading
import NetworkCompiler.Proofs.Json.Comments

/-!
# Comments as blanks

Where blanks stand for the comments of a text, a comment separates what stands on its two sides. A
comment that is stripped does so only if something of it is left : the line feeds of a block
comment, or the end of the line behind a line comment. Between two characters of numbers or names
there may be only block comments on one line, and then these become one token (`Joins`).

Such texts are the only ones with other tokens (`Scan.tokens_fill_of_not_joins`,
`Scan.length_tokens_fill_lt`), and none of them is a value with blanks for its comments, because no
two numbers or names stand next to each other in a value (`IsValue.isChain`).
-/

namespace NetworkCompiler.Json

/-! ## Tokens next to each other -/

/-- Of two tokens next to each other, at most one is a number or a name. -/
def Apart (t u : List Char) : Prop := ¬(startsBare t = true ∧ startsBare u = true)

section Apart

variable {t : List Char} {ts us : List (List Char)}

theorem isChain_cons (ht : startsBare t = false) (hts : ts.IsChain Apart) :
    (t :: ts).IsChain Apart :=
  List.isChain_cons.mpr ⟨fun u _ h => by simp [ht] at h, hts⟩

theorem isChain_append_cons (ht : startsBare t = false) (hts : ts.IsChain Apart)
    (hus : us.IsChain Apart) : (ts ++ t :: us).IsChain Apart := by
  refine List.isChain_append.mpr ⟨hts, isChain_cons ht hus, fun u _ t' ht' h => ?_⟩
  obtain rfl : t = t' := by simpa using ht'
  simp [ht] at h

variable {P : List (List Char) → Value → Prop} (hP : ∀ {ts v}, P ts v → ts.IsChain Apart)
include hP

theorem Items.isChain {vs : List Value} (h : Items P ts vs) : ts.IsChain Apart := by
  induction h with
  | last hv => exact hP hv
  | more hv _ ih => exact isChain_append_cons (by decide) (hP hv) ih

theorem Members.isChain {ms : List (String × Value)} (h : Members P ts ms) :
    ts.IsChain Apart := by
  induction h with
  | last _ hv => exact isChain_cons rfl (isChain_cons (by decide) (hP hv))
  | more _ hv _ ih =>
    exact isChain_cons rfl (isChain_cons (by decide) (isChain_append_cons (by decide) (hP hv) ih))

end Apart

/-- No two numbers or names stand next to each other in a value. -/
theorem IsValue.isChain {depth : Nat} {ts : List (List Char)} {v : Value}
    (h : IsValue depth ts v) : ts.IsChain Apart := by
  induction depth generalizing ts v with
  | zero =>
    obtain ⟨t, rfl, -⟩ := h
    exact List.isChain_singleton t
  | succ depth ih =>
    cases h with
    | scalar => exact List.isChain_singleton _
    | emptyArray | emptyObject => exact isChain_cons (by decide) (List.isChain_singleton _)
    | array hvs =>
      exact isChain_cons (by decide) (isChain_append_cons (by decide) (hvs.isChain ih) .nil)
    | object hms =>
      exact isChain_cons (by decide) (isChain_append_cons (by decide) (hms.isChain ih) .nil)

/-! ## A character in front -/

section Character

variable {c : Char} {x y : List Char}

theorem tokens_cons_of_apart (hquote : c ≠ '"') (h : isBare c = true → startsBare x = false) :
    tokens (c :: x) = (if isSpace c then [] else [[c]]) ++ tokens x := by
  rcases char_cases c with hc | hc | hc | hc
  · rw [tokens_space hc, if_pos hc, List.nil_append]
  · exact absurd hc hquote
  · rw [tokens_punct hc, (solid_of_isPunct hc).1]
    rfl
  · obtain ⟨htake, hdrop⟩ := span_bare (List.forall_mem_nil _) (h hc)
    rw [List.nil_append] at htake hdrop
    rw [tokens_bare hc, htake, hdrop, (solid_of_isBare hc).1]
    rfl

theorem tokens_cons_of_bare (hc : isBare c = true) (hx : startsBare x = true) :
    ∃ t ts, tokens x = t :: ts ∧ startsBare t = true ∧ tokens (c :: x) = (c :: t) :: ts := by
  cases x with
  | nil => cases hx
  | cons d x =>
    have hd : isBare d = true := by simpa [startsBare] using hx
    refine ⟨d :: x.takeWhile isBare, _, tokens_bare hd, by simpa [startsBare] using hd, ?_⟩
    rw [tokens_bare hc, List.takeWhile_cons_of_pos hd, List.dropWhile_cons_of_pos hd]

/-- A character in front is a token of its own if what stands behind is apart from it. -/
theorem length_tokens_cons (hquote : c ≠ '"') : (tokens (c :: x)).length = (tokens x).length +
    if isSpace c = true ∨ isBare c = true ∧ startsBare x = true then 0 else 1 := by
  by_cases hjoin : isBare c = true ∧ startsBare x = true
  · obtain ⟨t, ts, hx, -, hcons⟩ := tokens_cons_of_bare hjoin.1 hjoin.2
    simp [hjoin, hx, hcons]
  · rw [tokens_cons_of_apart hquote fun hc => by simpa [hc] using hjoin]
    cases hspace : isSpace c <;> simp [hjoin, Nat.add_comm]

/-- A character in front adds no more tokens where it stands before a number or a name. -/
theorem length_tokens_cons_le (hquote : c ≠ '"')
    (hstarts : startsBare y = true → startsBare x = true) {n : Nat}
    (h : (tokens x).length + n ≤ (tokens y).length) :
    (tokens (c :: x)).length + n ≤ (tokens (c :: y)).length := by
  rw [length_tokens_cons hquote, length_tokens_cons hquote]
  have hcost : (if isSpace c = true ∨ isBare c = true ∧ startsBare x = true then 0 else 1) ≤
      if isSpace c = true ∨ isBare c = true ∧ startsBare y = true then 0 else 1 := by
    by_cases hy : isSpace c = true ∨ isBare c = true ∧ startsBare y = true
    · rw [if_pos hy, if_pos (hy.imp_right (And.imp_right hstarts))]
    · rw [if_neg hy]
      split <;> omega
  omega

theorem tokens_cons_congr (hquote : c ≠ '"') (h : tokens x = tokens y)
    (hstarts : isBare c = true → startsBare x = startsBare y) :
    tokens (c :: x) = tokens (c :: y) := by
  by_cases hjoin : isBare c = true ∧ startsBare x = true
  · obtain ⟨hc, hx⟩ := hjoin
    obtain ⟨t, ts, htx, -, hcx⟩ := tokens_cons_of_bare hc hx
    obtain ⟨u, us, huy, -, hcy⟩ := tokens_cons_of_bare hc ((hstarts hc).symm.trans hx)
    obtain ⟨rfl, rfl⟩ := List.cons.inj (htx.symm.trans (h.trans huy))
    rw [hcx, hcy]
  · have hapart : isBare c = true → startsBare x = false := fun hc => by simpa [hc] using hjoin
    rw [tokens_cons_of_apart hquote hapart, h,
      tokens_cons_of_apart hquote fun hc => hstarts hc ▸ hapart hc]

theorem isChain_of_cons (hquote : c ≠ '"') (h : (tokens (c :: x)).IsChain Apart) :
    (tokens x).IsChain Apart := by
  by_cases hjoin : isBare c = true ∧ startsBare x = true
  · obtain ⟨t, ts, hx, ht, hcons⟩ := tokens_cons_of_bare hjoin.1 hjoin.2
    rw [hcons, List.isChain_cons] at h
    rw [hx, List.isChain_cons]
    exact ⟨fun u hu hbare => h.1 u hu ⟨by simpa [startsBare] using hjoin.1, hbare.2⟩, h.2⟩
  · rw [tokens_cons_of_apart hquote fun hc => by simpa [hc] using hjoin] at h
    exact h.right_of_append

end Character

/-! ## Tokens that are joined -/

/-- A block comment on one line. -/
def Segment.IsInline (g : Segment) : Prop := ∃ s, g = .blockComment s ∧ '\n' ∉ s

/-- Two characters of numbers or names have only block comments on one line between them. -/
inductive Joins : List Segment → Prop where
  | here {c d : Char} {gap after : List Segment} : isBare c = true → isBare d = true →
      gap ≠ [] → (∀ g ∈ gap, g.IsInline) → Joins (.code c :: (gap ++ .code d :: after))
  | later {g : Segment} {gs : List Segment} : Joins gs → Joins (g :: gs)

namespace Scan

variable {blank : List Char} {cs : List Char} {gs : List Segment}

/-- What is stripped begins with a number or a name only behind block comments on one line. -/
theorem eq_of_startsBare_stripped (h : Scan [] cs gs) (hs : startsBare (fill [] gs) = true) :
    ∃ gap d after, gs = gap ++ .code d :: after ∧ isBare d = true ∧
      ∀ g ∈ gap, g.IsInline := by
  induction h with
  | done => cases hs
  | @code d _ gs => exact ⟨[], d, gs, rfl, hs, List.forall_mem_nil _⟩
  | literal =>
    rw [fill_cons, fill_literal] at hs
    cases hs
  | @lineComment s cs gs hline hcs h _ =>
    -- The line ends behind the comment, or the text does.
    rw [fill_cons, fill_nil_lineComment hline, List.nil_append] at hs
    cases h with
    | done => cases hs
    | code =>
      obtain rfl := hcs _ rfl
      cases hs
    | literal | lineComment | blockComment => exact absurd (hcs _ rfl) (by decide)
  | @blockComment s cs gs _ _ ih =>
    rw [fill_cons, fill_nil_blockComment] at hs
    cases hlines : s.filter (· = '\n') with
    | nil =>
      rw [hlines, List.nil_append] at hs
      obtain ⟨gap, d, after, rfl, hd, hgap⟩ := ih hs
      have hs : '\n' ∉ s := fun hmem => by simpa using List.filter_eq_nil_iff.mp hlines _ hmem
      exact ⟨.blockComment s :: gap, d, after, rfl, hd,
        List.forall_mem_cons.mpr ⟨⟨s, rfl, hs⟩, hgap⟩⟩
    | cons c lines =>
      have hc : c ∈ s.filter (· = '\n') := hlines ▸ List.mem_cons_self
      obtain rfl : c = '\n' := by simpa using (List.mem_filter.mp hc).2
      rw [hlines] at hs
      cases hs

theorem tokens_fill_literal {s : List Char} (h : Scan [] (literalSpan false s).2 gs) :
    tokens (fill blank (.literal (literalSpan false s).1 :: gs)) =
      ('"' :: (literalSpan false s).1) :: tokens (fill blank gs) := by
  rw [fill_cons, fill_literal, List.cons_append, tokens_quote, h.literalSpan_fill]

section Blank

variable (hblank : ∀ c ∈ blank, isSpace c = true)
include hblank

/-- A comment with blanks in its place is no token. -/
theorem tokens_fill_comment {g : Segment} {s : List Char}
    (hg : g.marks = s.map fun c => (c, decide (c = '\n'))) (gs : List Segment) :
    tokens (fill blank (g :: gs)) = tokens (fill blank gs) := by
  rw [fill_cons, tokens_spaces_append (isSpace_of_mem_fill hblank hg)]

variable (hne : blank ≠ [])
include hne

/-- With blanks in the place of comments, a number or a name is the first thing of the text. -/
theorem eq_of_startsBare_fill (hs : startsBare (fill blank gs) = true) :
    ∃ d after, gs = .code d :: after ∧ isBare d = true := by
  obtain ⟨b, bs, rfl⟩ := List.exists_cons_of_ne_nil hne
  have hb : isBare b = false := by
    rw [← Bool.not_eq_true]
    exact fun hbare => by simpa [(solid_of_isBare hbare).1] using hblank b List.mem_cons_self
  cases gs with
  | nil => cases hs
  | cons g gs =>
    cases g with
    | code d => exact ⟨d, gs, rfl, hs⟩
    | literal s =>
      rw [fill_cons, fill_literal] at hs
      cases hs
    | lineComment | blockComment => simp [fill, Segment.marks, startsBare, hb] at hs

theorem startsBare_stripped_of_fill (hs : startsBare (fill blank gs) = true) :
    startsBare (fill [] gs) = true := by
  obtain ⟨d, after, rfl, hd⟩ := eq_of_startsBare_fill hblank hne hs
  exact hd

theorem startsBare_fill_eq {c : Char} (hc : isBare c = true) (h : Scan [] cs gs)
    (hjoins : ¬Joins (.code c :: gs)) : startsBare (fill [] gs) = startsBare (fill blank gs) := by
  refine Bool.eq_iff_iff.mpr ⟨fun hs => ?_, startsBare_stripped_of_fill hblank hne⟩
  obtain ⟨gap, d, after, rfl, hd, hgap⟩ := h.eq_of_startsBare_stripped hs
  obtain rfl : gap = [] := by
    by_contra hne
    exact hjoins (.here hc hd hne hgap)
  exact hd

/-- Without joined tokens a comment that is stripped is as good as one that is blank. -/
theorem tokens_fill_of_not_joins (h : Scan [] cs gs) (hjoins : ¬Joins gs) :
    tokens (fill [] gs) = tokens (fill blank gs) := by
  induction h with
  | done => rfl
  | code hquote _ h ih =>
    rw [fill_cons, fill_cons blank, fill_code, fill_code]
    exact tokens_cons_congr hquote (ih (mt .later hjoins)) fun hc =>
      startsBare_fill_eq hblank hne hc h hjoins
  | literal h ih =>
    rw [h.tokens_fill_literal, h.tokens_fill_literal, ih (mt .later hjoins)]
  | lineComment _ _ _ ih | blockComment _ _ ih =>
    rw [tokens_fill_comment (List.forall_mem_nil _) rfl, tokens_fill_comment hblank rfl,
      ih (mt .later hjoins)]

theorem length_tokens_fill_le (h : Scan [] cs gs) :
    (tokens (fill [] gs)).length ≤ (tokens (fill blank gs)).length := by
  induction h with
  | done => exact Nat.le_refl _
  | @code c _ gs hquote _ _ ih =>
    rw [fill_cons, fill_cons blank, fill_code, fill_code]
    exact length_tokens_cons_le hquote (startsBare_stripped_of_fill hblank hne) (n := 0) ih
  | literal h ih =>
    rw [h.tokens_fill_literal, h.tokens_fill_literal]
    exact Nat.succ_le_succ ih
  | lineComment _ _ _ ih | blockComment _ _ ih =>
    rwa [tokens_fill_comment (List.forall_mem_nil _) rfl, tokens_fill_comment hblank rfl]

omit hne in
theorem tokens_fill_gap {gap : List Segment}
    (hblocks : ∀ g ∈ gap, g.IsInline) (gs : List Segment) :
    tokens (fill blank (gap ++ gs)) = tokens (fill blank gs) := by
  induction gap with
  | nil => rfl
  | cons g gap ih =>
    obtain ⟨⟨s, rfl, -⟩, hgap⟩ := List.forall_mem_cons.mp hblocks
    rw [List.cons_append, tokens_fill_comment hblank rfl, ih hgap]

/-- A number or a name in front of a comment is a token of its own. -/
theorem startsBare_fill_gap {gap : List Segment} (hgap : gap ≠ [])
    (hblocks : ∀ g ∈ gap, g.IsInline) (gs : List Segment) :
    startsBare (fill blank (gap ++ gs)) = false := by
  rw [← Bool.not_eq_true]
  intro hs
  obtain ⟨d, after, heq, -⟩ := eq_of_startsBare_fill hblank hne hs
  obtain ⟨g, gap, rfl⟩ := List.exists_cons_of_ne_nil hgap
  obtain ⟨s, rfl, -⟩ := hblocks g List.mem_cons_self
  cases heq

omit hblank hne in
theorem startsBare_stripped_gap {d : Char} {gap after : List Segment} (hd : isBare d = true)
    (hblocks : ∀ g ∈ gap, g.IsInline) :
    startsBare (fill [] (gap ++ .code d :: after)) = true := by
  induction gap with
  | nil => exact hd
  | cons g gap ih =>
    obtain ⟨⟨s, rfl, hs⟩, hgap⟩ := List.forall_mem_cons.mp hblocks
    have hlines : s.filter (· = '\n') = [] :=
      List.filter_eq_nil_iff.mpr fun c hc => by simpa using ne_of_mem_of_not_mem hc hs
    rw [List.cons_append, fill_cons, fill_nil_blockComment, hlines, List.nil_append, ih hgap]

/-- Where tokens are joined there are fewer of them, and with blanks two numbers or names stand next
to each other. -/
theorem tokens_fill_of_joins (h : Scan [] cs gs) (hjoins : Joins gs) :
    (tokens (fill [] gs)).length < (tokens (fill blank gs)).length ∧
      ¬(tokens (fill blank gs)).IsChain Apart := by
  induction h with
  | done => cases hjoins
  | @code c _ gs hquote _ h ih =>
    rw [fill_cons, fill_cons blank, fill_code, fill_code, List.singleton_append,
      List.singleton_append]
    cases hjoins with
    | @here _ d gap after hc hd hgap hblocks =>
      have hapart := startsBare_fill_gap hblank hne hgap hblocks (.code d :: after)
      have hbehind := tokens_fill_gap hblank hblocks (.code d :: after)
      constructor
      · have hle := h.length_tokens_fill_le hblank hne
        rw [length_tokens_cons hquote, length_tokens_cons hquote,
          if_pos (.inr ⟨hc, startsBare_stripped_gap hd hblocks⟩),
          if_neg (by simp [(solid_of_isBare hc).1, hapart])]
        omega
      · rw [tokens_cons_of_apart hquote fun _ => hapart, (solid_of_isBare hc).1, hbehind, fill_cons,
          fill_code, List.singleton_append, tokens_bare hd]
        exact fun hchain => (List.isChain_cons_cons.mp hchain).1
          ⟨by simpa [startsBare] using hc, by simpa [startsBare] using hd⟩
    | later hjoins =>
      obtain ⟨hlt, hchain⟩ := ih hjoins
      exact ⟨length_tokens_cons_le hquote (startsBare_stripped_of_fill hblank hne) (n := 1) hlt,
        mt (isChain_of_cons hquote) hchain⟩
  | literal h ih =>
    cases hjoins with | later hjoins =>
    obtain ⟨hlt, hchain⟩ := ih hjoins
    rw [h.tokens_fill_literal, h.tokens_fill_literal]
    exact ⟨Nat.succ_lt_succ hlt, fun h => hchain h.tail⟩
  | lineComment _ _ _ ih | blockComment _ _ ih =>
    cases hjoins with | later hjoins =>
    rw [tokens_fill_comment (List.forall_mem_nil _) rfl, tokens_fill_comment hblank rfl]
    exact ih hjoins

end Blank

end Scan

/-! ## Documents -/

/-- A comment that is stripped is read as blanks would be, unless it joins two numbers or names :
then there are fewer tokens, and the text with blanks would be refused. -/
theorem stripComments_asBlanks {text out : String} (hstrip : stripComments text = some out)
    {blank : List Char} (hne : blank ≠ []) (hblank : ∀ c ∈ blank, isSpace c = true) :
    ∃ gs, Scan [] text.toList gs ∧ out.toList = fill [] gs ∧
      (tokens out.toList = tokens (fill blank gs) ↔ ¬Joins gs) ∧
      (¬Joins gs → read? (String.ofList (fill blank gs)) = read? out ∧
        ∀ origin, parseObject origin (String.ofList (fill blank gs)) = parseObject origin text) ∧
      (Joins gs → (tokens out.toList).length < (tokens (fill blank gs)).length ∧
        read? (String.ofList (fill blank gs)) = none ∧
        ∀ origin, parseObject origin (String.ofList (fill blank gs)) =
          .error (.json origin .malformed)) := by
  rcases exists_scan text.toList with ⟨gs, h⟩ | ⟨gs, s, h, hs⟩
  swap
  · rw [stripComments_eq_none h hs] at hstrip
    cases hstrip
  obtain rfl := Option.some.inj ((stripComments_of_scan h).symm.trans hstrip)
  have hblanks : stripComments (String.ofList (fill blank gs)) =
      some (String.ofList (fill blank gs)) := by
    rw [stripComments, String.toList_ofList, h.stripFrom_fill hblank, Option.map_some]
  refine ⟨gs, h, String.toList_ofList, ?_, fun hjoins => ?_, fun hjoins => ?_⟩
  · rw [String.toList_ofList]
    refine ⟨fun htokens hjoins => ?_, h.tokens_fill_of_not_joins hblank hne⟩
    have hlt := (h.tokens_fill_of_joins hblank hne hjoins).1
    rw [htokens] at hlt
    exact Nat.lt_irrefl _ hlt
  · have hread : read? (String.ofList (fill blank gs)) = read? (String.ofList (fill [] gs)) :=
      read?_congr (by simpa using (h.tokens_fill_of_not_joins hblank hne hjoins).symm)
    refine ⟨hread, fun origin => ?_⟩
    rw [parseObject, parseObject, hblanks, hstrip]
    dsimp only
    rw [hread]
  · obtain ⟨hlt, hchain⟩ := h.tokens_fill_of_joins hblank hne hjoins
    have hread : read? (String.ofList (fill blank gs)) = none := by
      refine Option.eq_none_iff_forall_ne_some.mpr fun v hv => hchain ?_
      simpa using (read?_eq_some_iff.mp hv).isChain
    refine ⟨by simpa using hlt, hread, fun origin => ?_⟩
    rw [parseObject, hblanks]
    dsimp only
    rw [hread]

/-- A comment behind a number, a literal with the mark of a comment in it, and a comment to the end
of the line, which join nothing. -/
theorem stripComments_asBlanks_list :
    stripComments "[1/*,*/, \"/*\"// two\n]" = some "[1, \"/*\"\n]" ∧ [' '] ≠ [] ∧
      (∀ c ∈ [' '], isSpace c = true) ∧
      ∃ gs, Scan [] "[1/*,*/, \"/*\"// two\n]".toList gs ∧ ¬Joins gs ∧
        tokens "[1, \"/*\"\n]".toList = tokens (fill [' '] gs) ∧
        read? (String.ofList (fill [' '] gs)) = some (.arr [.int 1, .str "/*"]) := by
  have hstrip : stripComments "[1/*,*/, \"/*\"// two\n]" = some "[1, \"/*\"\n]" := by
    decide +kernel
  have hblank : ∀ c ∈ [' '], isSpace c = true := List.forall_mem_singleton.mpr rfl
  have hread : read? "[1, \"/*\"\n]" = some (.arr [.int 1, .str "/*"]) := rfl
  obtain ⟨gs, hscan, hout, htokens, hsame, hrefused⟩ :=
    stripComments_asBlanks hstrip (List.cons_ne_nil ' ' []) hblank
  have hline : Scan [] "// two\n]".toList _ :=
    @Scan.lineComment _ " two".toList "\n]".toList _ (by decide) (by simp) <|
    .code (by decide) (by decide) <| .code (by decide) (by decide) .done
  have hgs : gs = _ := hscan.unique <|
    .code (by decide) (by decide) <| .code (by decide) (by decide) <|
    @Scan.blockComment _ [','] ", \"/*\"// two\n]".toList _ (by decide) <|
    .code (by decide) (by decide) <| .code (by decide) (by decide) <|
    @Scan.literal _ "/*\"// two\n]".toList _ hline
  have hjoins : ¬Joins gs := by
    intro h
    have hnone := (hrefused h).2.1
    subst hgs
    cases hnone
  exact ⟨hstrip, List.cons_ne_nil _ _, hblank, gs, hscan, hjoins, htokens.mpr hjoins,
    (hsame hjoins).1.trans hread⟩

/-- Two ports with a comment between them and no comma are one port, and not refused. -/
theorem stripComments_joinsPorts :
    ∃ gs, Scan [] "\x7b\"tcp\":[80/* http */80]\x7d".toList gs ∧
      stripComments "\x7b\"tcp\":[80/* http */80]\x7d" = some "\x7b\"tcp\":[8080]\x7d" ∧
      String.ofList (fill [' '] gs) = "\x7b\"tcp\":[80          80]\x7d" ∧
      tokens "\x7b\"tcp\":[8080]\x7d".toList ≠ tokens (fill [' '] gs) ∧
      parseObject "net.json" "\x7b\"tcp\":[80/* http */80]\x7d" = .ok [("tcp", .arr [.int 8080])] ∧
      parseObject "net.json" (String.ofList (fill [' '] gs)) =
        .error (.json "net.json" .malformed) := by
  have hafter : Scan [] "80]\x7d".toList _ :=
    .code (by decide) (by decide) <| .code (by decide) (by decide) <|
    .code (by decide) (by decide) <| .code (by decide) (by decide) .done
  have hlist : Scan [] "[80/* http */80]\x7d".toList _ :=
    .code (by decide) (by decide) <| .code (by decide) (by decide) <|
    .code (by decide) (by decide) <| @Scan.blockComment _ " http ".toList _ _ (by decide) hafter
  have hscan : Scan [] "\x7b\"tcp\":[80/* http */80]\x7d".toList _ :=
    .code (by decide) (by decide) <| @Scan.literal _ "tcp\":[80/* http */80]\x7d".toList _ <|
    .code (by decide) (by decide) hlist
  have hblank : ∀ c ∈ [' '], isSpace c = true := List.forall_mem_singleton.mpr rfl
  have hlt := (hscan.tokens_fill_of_joins hblank (by decide) <|
    .later <| .later <| .later <| .later <| .later <|
    @Joins.here '0' '8' [.blockComment " http ".toList] _ (by decide) (by decide) (by simp)
      (by simp [Segment.IsInline])).1
  refine ⟨_, hscan, by decide +kernel, by decide +kernel, fun htokens => ?_, rfl, rfl⟩
  rw [← htokens] at hlt
  exact Nat.lt_irrefl _ hlt

end NetworkCompiler.Json
