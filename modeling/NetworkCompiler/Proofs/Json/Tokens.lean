import Mathlib.Data.List.TakeWhile
import Mathlib.Tactic.Common
import NetworkCompiler.Json.Reader
import NetworkCompiler.Proofs.Lists

/-!
# Tokens of JSON

A JSON text is a sequence of tokens with blanks between them : structural characters, string
literals, and the numbers and names, which are the longest runs of other characters (`tokens`). The
reader depends on nothing else of a text : it reads a value exactly if the tokens of the text are
those of the value (`read?_eq_some_iff`), where `IsValue` is the grammar of values over tokens.
-/

namespace NetworkCompiler.Json

/-! ## Literals -/

/-- What is left of a literal, up to the closing quote or the end of the text, and the rest of the
text. A character behind a backslash closes nothing. -/
def literalSpan : Bool → List Char → List Char × List Char
  | _, [] => ([], [])
  | escaped, c :: cs =>
    if !escaped && c = '"' then ([c], cs)
    else ((c :: (literalSpan (!escaped && c = '\\') cs).1),
      (literalSpan (!escaped && c = '\\') cs).2)

theorem append_literalSpan (escaped : Bool) (cs : List Char) :
    (literalSpan escaped cs).1 ++ (literalSpan escaped cs).2 = cs := by
  induction cs generalizing escaped with
  | nil => rfl
  | cons c cs ih =>
    rw [literalSpan]
    split
    · rfl
    · rw [List.cons_append, ih]

/-- A literal that ends before the text does is the same in front of another rest. -/
theorem literalSpan_append (escaped : Bool) (cs : List Char) {x : List Char}
    (h : (literalSpan escaped cs).2 = [] → x = []) :
    literalSpan escaped ((literalSpan escaped cs).1 ++ x) = ((literalSpan escaped cs).1, x) := by
  induction cs generalizing escaped with
  | nil => simp [h rfl, literalSpan]
  | cons c cs ih =>
    rw [literalSpan] at h ⊢
    split at h
    · next hclose => simp only [if_pos hclose, List.cons_append, List.nil_append, literalSpan]
    · next hopen => simp only [if_neg hopen, List.cons_append, literalSpan, ih _ h]

/-! ## Tokens -/

/-- The characters between which tokens are found : blanks, structural characters and quotes. -/
def breaks : List Char :=
  [' ', '\n', '\t', '\r', '[', ']', '{', '}', ',', ':', '"']

/-- Whether a character is one of a number or a name. -/
def isBare (c : Char) : Bool := c ∉ breaks

/-- Whether a text goes on with a number or a name. -/
def startsBare (cs : List Char) : Bool := cs.head?.any isBare

/-- The tokens of a text, as they are written. -/
def tokens : List Char → List (List Char)
  | [] => []
  | c :: cs =>
    if isSpace c then tokens cs
    else if c = '"' then ('"' :: (literalSpan false cs).1) :: tokens (literalSpan false cs).2
    else if isBare c then (c :: cs.takeWhile isBare) :: tokens (cs.dropWhile isBare)
    else [c] :: tokens cs
termination_by cs => cs.length
decreasing_by
  · simp
  · have := congrArg List.length (append_literalSpan false cs)
    simp at this ⊢
    omega
  · have := List.length_dropWhile_le isBare cs
    simp
    omega
  · simp

section Steps

variable {c : Char} {cs : List Char}

theorem isBare_eq_false_iff : isBare c = false ↔ c ∈ breaks := by
  simp [isBare]

theorem tokens_space (h : isSpace c = true) : tokens (c :: cs) = tokens cs := by
  rw [tokens, if_pos h]

theorem tokens_quote (cs : List Char) : tokens ('"' :: cs) =
    ('"' :: (literalSpan false cs).1) :: tokens (literalSpan false cs).2 := by
  rw [tokens, if_neg (by decide), if_pos rfl]

theorem solid_of_isBare (h : isBare c = true) : isSpace c = false ∧ c ≠ '"' := by
  have hbreak : ∀ c, isBare c = true → c ∉ breaks := fun c hc => by simpa [isBare] using hc
  constructor
  · rw [← Bool.not_eq_true]
    intro hspace
    refine hbreak c h ?_
    simp only [isSpace, Bool.or_eq_true, decide_eq_true_eq] at hspace
    rcases hspace with ((rfl | rfl) | rfl) | rfl <;> decide
  · rintro rfl
    cases h

theorem tokens_bare (h : isBare c = true) :
    tokens (c :: cs) = (c :: cs.takeWhile isBare) :: tokens (cs.dropWhile isBare) := by
  obtain ⟨hspace, hquote⟩ := solid_of_isBare h
  rw [tokens, if_neg (by simp [hspace]), if_neg hquote, if_pos h]

/-- Whether a character is structural. -/
def isPunct (c : Char) : Bool := c ∈ ['[', ']', '{', '}', ',', ':']

theorem solid_of_isPunct (h : isPunct c = true) :
    isSpace c = false ∧ c ≠ '"' ∧ isBare c = false := by
  have hsolid : ['[', ']', '{', '}', ',', ':'].all fun c =>
      isSpace c = false ∧ c ≠ '"' ∧ isBare c = false := by
    decide
  exact of_decide_eq_true (List.all_eq_true.mp hsolid c (of_decide_eq_true h))

theorem tokens_punct (h : isPunct c = true) : tokens (c :: cs) = [c] :: tokens cs := by
  obtain ⟨hspace, hquote, hbare⟩ := solid_of_isPunct h
  rw [tokens, if_neg (by simp [hspace]), if_neg hquote, if_neg (by simp [hbare])]

/-- There are four kinds of characters. -/
theorem char_cases (c : Char) :
    isSpace c = true ∨ c = '"' ∨ isPunct c = true ∨ isBare c = true := by
  cases hbare : isBare c with
  | true => simp
  | false =>
    have hkinds : breaks.all fun c => isSpace c = true ∨ c = '"' ∨ isPunct c = true := by
      decide
    have hc := of_decide_eq_true (List.all_eq_true.mp hkinds c (isBare_eq_false_iff.mp hbare))
    rcases hc with h | h | h <;> simp [h]

end Steps

theorem tokens_skipSpace (cs : List Char) : tokens (skipSpace cs) = tokens cs := by
  induction cs with
  | nil => rfl
  | cons c cs ih =>
    cases h : isSpace c with
    | true => rw [tokens_space h, ← ih, skipSpace, List.dropWhile_cons_of_pos h, skipSpace]
    | false => rw [skipSpace, List.dropWhile_cons_of_neg (by simp [h])]

theorem tokens_spaces_append {bs : List Char} (h : ∀ c ∈ bs, isSpace c = true) (cs : List Char) :
    tokens (bs ++ cs) = tokens cs := by
  rw [← tokens_skipSpace (bs ++ cs), skipSpace, List.dropWhile_append_of_pos h, ← skipSpace,
    tokens_skipSpace]

theorem span_bare {w x : List Char} (hw : ∀ c ∈ w, isBare c = true) (hx : startsBare x = false) :
    (w ++ x).takeWhile isBare = w ∧ (w ++ x).dropWhile isBare = x := by
  rw [List.takeWhile_append_of_pos hw, List.dropWhile_append_of_pos hw]
  cases x with
  | nil => simp
  | cons c x =>
    have hc : ¬isBare c = true := by simpa [startsBare] using hx
    rw [List.takeWhile_cons_of_neg hc, List.dropWhile_cons_of_neg hc]
    simp

theorem startsBare_dropWhile (cs : List Char) : startsBare (cs.dropWhile isBare) = false := by
  have hhead := List.head?_dropWhile_not isBare cs
  rw [startsBare]
  cases h : (cs.dropWhile isBare).head? with
  | none => rfl
  | some c => simpa [h] using hhead

/-- `t` is a token in front of the rest `x` of a text. -/
inductive Cut : List Char → List Char → Prop where
  | punct {c : Char} {x : List Char} : isPunct c = true → Cut [c] x
  | literal {s x : List Char} : literalSpan false (s ++ x) = (s, x) → Cut ('"' :: s) x
  | word {c : Char} {w x : List Char} : isBare c = true → (∀ d ∈ w, isBare d = true) →
      startsBare x = false → Cut (c :: w) x

theorem Cut.tokens_append {t x : List Char} (h : Cut t x) : tokens (t ++ x) = t :: tokens x := by
  cases h with
  | punct hc => exact tokens_punct hc
  | literal hs => rw [List.cons_append, tokens_quote, hs]
  | word hc hw hx =>
    obtain ⟨htake, hdrop⟩ := span_bare hw hx
    rw [List.cons_append, tokens_bare hc, htake, hdrop]

/-- The first token stands in front of the text behind its blanks. -/
theorem exists_cut {cs t : List Char} {ts : List (List Char)} (h : tokens cs = t :: ts) :
    ∃ x, skipSpace cs = t ++ x ∧ Cut t x ∧ tokens x = ts := by
  induction cs with
  | nil => simp [tokens] at h
  | cons c cs ih =>
    rcases Bool.eq_false_or_eq_true (isSpace c) with hspace | hsolid
    · rw [tokens_space hspace] at h
      rw [skipSpace, List.dropWhile_cons_of_pos hspace]
      exact ih h
    rw [skipSpace, List.dropWhile_cons_of_neg (by simp [hsolid])]
    rcases char_cases c with hc | rfl | hc | hc
    · rw [hsolid] at hc
      cases hc
    · rw [tokens_quote] at h
      cases h
      have happend := append_literalSpan false cs
      exact ⟨_, by rw [List.cons_append, happend], .literal (by rw [happend]), rfl⟩
    · rw [tokens_punct hc] at h
      cases h
      exact ⟨cs, rfl, .punct hc, rfl⟩
    · rw [tokens_bare hc] at h
      cases h
      exact ⟨_, by rw [List.cons_append, List.takeWhile_append_dropWhile],
        .word hc (fun d hd => List.mem_takeWhile_imp hd) (startsBare_dropWhile cs), rfl⟩

/-! ## Numbers and names

A number or a name is read from its own characters : what stands behind is no part of it, because
it does not begin with one of them. -/

section Word

variable {x : List Char} (hx : startsBare x = false)
include hx

/-- What stands behind does not begin with a character of a number or a name. -/
theorem head_ne {c d : Char} {cs : List Char} (hc : isBare c = true) (h : x = d :: cs) : d ≠ c := by
  rintro rfl
  rw [h, startsBare, List.head?_cons, Option.any_some, hc] at hx
  cases hx

theorem after?_append {letters : List Char} (hletters : ∀ c ∈ letters, isBare c = true)
    (w : List Char) :
    Text.Chars.after? letters (w ++ x) = (Text.Chars.after? letters w).map (· ++ x) := by
  induction letters generalizing w with
  | nil => rfl
  | cons l letters ih =>
    obtain ⟨hl, hletters⟩ := List.forall_mem_cons.mp hletters
    cases w with
    | nil =>
      cases hcs : x with
      | nil => rfl
      | cons c cs => simp [Text.Chars.after?, (head_ne hx hl hcs).symm]
    | cons c w =>
      simp only [List.cons_append, Text.Chars.after?, ih hletters]
      split <;> rfl

theorem digitRun_append (w : List Char) :
    digitRun (w ++ x) = ((digitRun w).1, (digitRun w).2 ++ x) := by
  induction w with
  | nil =>
    cases x with
    | nil => rfl
    | cons c cs =>
      have hnone : breaks.all fun c => digit? c = none := by decide
      have hbreak : c ∈ breaks := isBare_eq_false_iff.mp (by simpa [startsBare] using hx)
      have hc : digit? c = none := of_decide_eq_true (List.all_eq_true.mp hnone c hbreak)
      simp [digitRun, hc]
  | cons c w ih =>
    simp only [List.cons_append, digitRun, ih]
    split <;> rfl

omit hx in
/-- An exponent without a sign is read as one with a plus. -/
theorem exponentPart_unsigned {cs : List Char} (h : ∀ c ∈ cs.head?, c ≠ '+' ∧ c ≠ '-')
    (positive : Bool) (significand : Nat) (start : Int) :
    exponentPart positive significand start cs =
      exponentPart positive significand start ('+' :: cs) := by
  rw [exponentPart, exponentPart]
  · rintro ds rfl
    exact (h _ rfl).1 rfl
  · rintro ds rfl
    exact (h _ rfl).2 rfl

theorem exponentPart_signed_append {c : Char} (hc : c = '+' ∨ c = '-') (positive : Bool)
    (significand : Nat) (start : Int) (w : List Char) :
    exponentPart positive significand start (c :: (w ++ x)) =
      (exponentPart positive significand start (c :: w)).map (Prod.map id (· ++ x)) := by
  rcases hc with rfl | rfl
  all_goals
    rw [exponentPart, exponentPart, digitRun_append hx]
    dsimp only
    split
    · rfl
    split
    · split <;> rfl
    · simp [Option.map_map, Function.comp_def]

theorem exponentPart_append (positive : Bool) (significand : Nat) (start : Int) (w : List Char) :
    exponentPart positive significand start (w ++ x) =
      (exponentPart positive significand start w).map (Prod.map id (· ++ x)) := by
  cases w with
  | nil =>
    have hhead : ∀ c ∈ ([] ++ x).head?, c ≠ '+' ∧ c ≠ '-' := fun c hc => by
      obtain ⟨cs, hcs⟩ := List.head?_eq_some_iff.mp hc
      exact ⟨head_ne hx (by decide) hcs, head_ne hx (by decide) hcs⟩
    have hnil : ∀ c ∈ ([] : List Char).head?, c ≠ '+' ∧ c ≠ '-' := nofun
    rw [exponentPart_unsigned hhead, exponentPart_signed_append hx (.inl rfl),
      exponentPart_unsigned hnil]
  | cons c w =>
    by_cases hc : c = '+' ∨ c = '-'
    · exact exponentPart_signed_append hx hc _ _ _ _
    · have hhead : ∀ d ∈ (c :: w).head?, d ≠ '+' ∧ d ≠ '-' := by simpa using hc
      have hhead' : ∀ d ∈ (c :: w ++ x).head?, d ≠ '+' ∧ d ≠ '-' := by simpa using hc
      rw [exponentPart_unsigned hhead', exponentPart_unsigned hhead,
        exponentPart_signed_append hx (.inl rfl)]

theorem exponentIfAny_append (positive : Bool) (significand : Nat) (start : Int) (w : List Char) :
    exponentIfAny positive significand start (w ++ x) =
      (exponentIfAny positive significand start w).map (Prod.map id (· ++ x)) := by
  cases w with
  | nil =>
    rw [List.nil_append]
    unfold exponentIfAny
    split
    · exact absurd rfl (head_ne hx (by decide) rfl)
    · exact absurd rfl (head_ne hx (by decide) rfl)
    · simp [Option.map_map, Function.comp_def]
  | cons c w =>
    by_cases hlower : c = 'e'
    · subst hlower
      exact exponentPart_append hx _ _ _ _
    by_cases hupper : c = 'E'
    · subst hupper
      exact exponentPart_append hx _ _ _ _
    simp [exponentIfAny, hlower, hupper, Option.map_map, Function.comp_def]

theorem fractionPart_append (positive : Bool) (significand : Nat) (start : Int) (w : List Char) :
    fractionPart positive significand start (w ++ x) =
      (fractionPart positive significand start w).map (Prod.map id (· ++ x)) := by
  unfold fractionPart
  rw [digitRun_append hx]
  dsimp only
  split
  · rfl
  · exact exponentIfAny_append hx _ _ _ _

theorem numberAfterSign_append (positive : Bool) (w : List Char) :
    numberAfterSign positive (w ++ x) =
      (numberAfterSign positive w).map (Prod.map id (· ++ x)) := by
  unfold numberAfterSign
  rw [digitRun_append hx]
  obtain ⟨ds, rest⟩ := digitRun w
  dsimp only
  split
  · rfl
  · rfl
  cases rest with
  | nil =>
    rw [List.nil_append]
    split
    · exact absurd rfl (head_ne hx (by decide) rfl)
    · exact absurd rfl (head_ne hx (by decide) rfl)
    · exact absurd rfl (head_ne hx (by decide) rfl)
    · split_ifs <;> simp [Option.map_map, Function.comp_def]
  | cons c rest =>
    by_cases hpoint : c = '.'
    · subst hpoint
      exact fractionPart_append hx _ _ _ _
    by_cases hlower : c = 'e'
    · subst hlower
      exact exponentPart_append hx _ _ _ _
    by_cases hupper : c = 'E'
    · subst hupper
      exact exponentPart_append hx _ _ _ _
    -- Neither a fraction nor an exponent follows, with or without what stands behind.
    rw [List.cons_append]
    split
    · next heq => exact absurd (List.cons.inj heq).1 hpoint
    · next heq => exact absurd (List.cons.inj heq).1 hlower
    · next heq => exact absurd (List.cons.inj heq).1 hupper
    split_ifs
    all_goals
      split
      · next heq => exact absurd (List.cons.inj heq).1 hpoint
      · next heq => exact absurd (List.cons.inj heq).1 hlower
      · next heq => exact absurd (List.cons.inj heq).1 hupper
      · simp [Option.map_map, Function.comp_def]

/-- A number or a name is read from its own characters. -/
theorem scalar?_append {c : Char} (hc : isBare c = true) (w : List Char) :
    scalar? (c :: w ++ x) = (scalar? (c :: w)).map (Prod.map id (· ++ x)) := by
  have hword : ∀ {letters v}, letters.all isBare = true →
      word? letters v (w ++ x) = (word? letters v w).map (Prod.map id (· ++ x)) :=
    fun {letters v} hletters => by
      simp [word?, after?_append hx (List.all_eq_true.mp hletters), Option.map_map,
        Function.comp_def]
  have hquote := (solid_of_isBare hc).2
  by_cases hnull : c = 'n'
  · subst hnull
    exact hword (by decide)
  by_cases htrue : c = 't'
  · subst htrue
    exact hword (by decide)
  by_cases hfalse : c = 'f'
  · subst hfalse
    exact hword (by decide)
  by_cases hsign : c = '-'
  · subst hsign
    exact numberAfterSign_append hx _ _
  simpa [scalar?, hnull, htrue, hfalse, hsign, hquote] using numberAfterSign_append hx true (c :: w)

end Word

/-! ## Strings -/

/-- A character of a literal that neither closes it nor escapes the next one. -/
theorem literalSpan_plain {c : Char} (hquote : c ≠ '"') (hslash : c ≠ '\\') (cs : List Char) :
    literalSpan false (c :: cs) = (c :: (literalSpan false cs).1, (literalSpan false cs).2) := by
  simp [literalSpan, hquote, hslash]

/-- A hexadecimal digit is a plain character of a literal. -/
theorem plain_of_hexValue? {c : Char} {n : Nat} (h : hexValue? c = some n) :
    c ≠ '"' ∧ c ≠ '\\' := by
  constructor <;>
  · rintro rfl
    cases h

/-- `e` is read as the beginning of a text, and is a part of a literal. -/
structure IsPart {α : Type} (read : List Char → Option (α × List Char)) (escaped : Bool)
    (e : List Char) (a : α) : Prop where
  read_append : ∀ x, read (e ++ x) = some (a, x)
  span_append : ∀ x, literalSpan escaped (e ++ x) =
    (e ++ (literalSpan false x).1, (literalSpan false x).2)

theorem hexWord?_eq_some {cs rest : List Char} {n : Nat} (h : hexWord? cs = some (n, rest)) :
    ∃ e, cs = e ++ rest ∧ IsPart hexWord? false e n := by
  unfold hexWord? at h
  split at h
  · next a b c d tail =>
    simp only [Option.bind_eq_bind, Option.bind_eq_some_iff] at h
    obtain ⟨va, ha, vb, hb, vc, hc, vd, hd, h⟩ := h
    cases h
    refine ⟨[a, b, c, d], rfl, fun x => ?_, fun x => ?_⟩
    · simp [hexWord?, ha, hb, hc, hd]
    · obtain ⟨ha, ha'⟩ := plain_of_hexValue? ha
      obtain ⟨hb, hb'⟩ := plain_of_hexValue? hb
      obtain ⟨hc, hc'⟩ := plain_of_hexValue? hc
      obtain ⟨hd, hd'⟩ := plain_of_hexValue? hd
      simp [literalSpan_plain, *]
  · cases h

theorem unicodeEscape?_eq_some {cs rest : List Char} {c : Char}
    (h : unicodeEscape? cs = some (c, rest)) :
    ∃ e, cs = e ++ rest ∧ IsPart unicodeEscape? false e c := by
  unfold unicodeEscape? at h
  obtain ⟨⟨n, tail⟩, hword, hread⟩ := Option.bind_eq_some_iff.mp h
  clear h
  obtain ⟨e, rfl, he⟩ := hexWord?_eq_some hword
  dsimp only at hread
  split at hread
  · cases hread
  next hlow =>
  split at hread
  · next hhigh =>
    split at hread
    · obtain ⟨⟨m, tail⟩, hword', hpair⟩ := Option.bind_eq_some_iff.mp hread
      clear hread
      obtain ⟨e', rfl, he'⟩ := hexWord?_eq_some hword'
      dsimp only at hpair
      split at hpair
      · next hlow' =>
        obtain ⟨rfl, rfl⟩ := Prod.mk.inj (Option.some.inj hpair)
        refine ⟨e ++ '\\' :: 'u' :: e', by simp, fun x => ?_, fun x => ?_⟩
        · rw [List.append_assoc]
          simp [unicodeEscape?, he.read_append, he'.read_append, hlow, hhigh, hlow']
        · rw [List.append_assoc, he.span_append]
          simp [literalSpan, he'.span_append]
      · cases hpair
    · cases hread
  · next hhigh =>
    cases hread
    refine ⟨e, rfl, fun x => ?_, he.span_append⟩
    simp [unicodeEscape?, he.read_append, hlow, hhigh]

theorem escape?_eq_some {cs rest : List Char} {c : Char} (h : escape? cs = some (c, rest)) :
    ∃ e, cs = e ++ rest ∧ IsPart escape? true e c := by
  unfold escape? at h
  split at h
  case h_9 tail =>
    obtain ⟨e, rfl, he⟩ := unicodeEscape?_eq_some h
    refine ⟨'u' :: e, rfl, fun x => he.read_append x, fun x => ?_⟩
    simp [literalSpan, he.span_append]
  case h_10 => cases h
  all_goals
    cases h
    exact ⟨[_], rfl, fun x => rfl, fun x => rfl⟩

/-- A string is read from what is left of its literal. -/
theorem stringBody?_eq_some {n : Nat} {cs b rest : List Char}
    (h : stringBody? n cs = some (b, rest)) :
    ∃ s, literalSpan false cs = (s, rest) ∧
      ∀ m x, s.length < m → stringBody? m (s ++ x) = some (b, x) := by
  induction n generalizing cs b with
  | zero => cases h
  | succ n ih =>
    cases cs with
    | nil => cases h
    | cons c cs =>
      rw [stringBody?] at h
      split at h
      · next hquote =>
        subst hquote
        cases h
        refine ⟨['"'], rfl, fun m x hm => ?_⟩
        obtain ⟨m, rfl⟩ := Nat.exists_eq_succ_of_ne_zero (Nat.ne_zero_of_lt hm)
        simp [stringBody?]
      next hquote =>
      split at h
      · next hslash =>
        subst hslash
        obtain ⟨⟨d, tail⟩, hescape, h⟩ := Option.bind_eq_some_iff.mp h
        obtain ⟨⟨b, tail⟩, hbody, h⟩ := Option.bind_eq_some_iff.mp h
        cases h
        obtain ⟨e, rfl, he⟩ := escape?_eq_some hescape
        obtain ⟨s, hspan, hs⟩ := ih hbody
        refine ⟨'\\' :: (e ++ s), by simp [literalSpan, he.span_append, hspan], fun m x hm => ?_⟩
        obtain ⟨m, rfl⟩ := Nat.exists_eq_succ_of_ne_zero (Nat.ne_zero_of_lt hm)
        simp only [List.length_cons, List.length_append, Nat.succ_lt_succ_iff] at hm
        simp [stringBody?, he.read_append, hs m x (by omega)]
      next hslash =>
      split at h
      · cases h
      · next hcontrol =>
        obtain ⟨⟨b, tail⟩, hbody, h⟩ := Option.bind_eq_some_iff.mp h
        cases h
        obtain ⟨s, hspan, hs⟩ := ih hbody
        refine ⟨c :: s, by simp [literalSpan_plain hquote hslash, hspan], fun m x hm => ?_⟩
        obtain ⟨m, rfl⟩ := Nat.exists_eq_succ_of_ne_zero (Nat.ne_zero_of_lt hm)
        simp [stringBody?, hquote, hslash, hcontrol, hs m x (Nat.succ_lt_succ_iff.mp hm)]

theorem string?_eq_some {cs rest : List Char} {s : String} (h : string? cs = some (s, rest)) :
    ∃ body, literalSpan false cs = (body, rest) ∧ ∀ x, string? (body ++ x) = some (s, x) := by
  obtain ⟨⟨b, tail⟩, hbody, heq⟩ := Option.map_eq_some_iff.mp h
  obtain ⟨rfl, rfl⟩ := Prod.mk.inj heq
  obtain ⟨body, hspan, hread⟩ := stringBody?_eq_some hbody
  refine ⟨body, hspan, fun x => ?_⟩
  rw [string?, hread _ x (by rw [List.length_append]; omega), Option.map_some]

/-! ## Scalars

A value without parts is read from one token. -/

theorem digitRun_suffix (cs : List Char) : (digitRun cs).2 <:+ cs := by
  induction cs with
  | nil => exact List.suffix_rfl
  | cons c cs ih =>
    rw [digitRun]
    split
    · exact ih.trans (List.suffix_cons _ _)
    · exact List.suffix_rfl

section Suffix

variable {positive : Bool} {significand : Nat} {start : Int} {cs rest : List Char} {v : Value}

theorem exponentPart_signed_suffix {c : Char} (hc : c = '+' ∨ c = '-')
    (h : exponentPart positive significand start (c :: cs) = some (v, rest)) : rest <:+ cs := by
  have hrest : rest = (digitRun cs).2 := by
    rcases hc with rfl | rfl
    all_goals
      rw [exponentPart] at h
      dsimp only at h
      split at h
      · cases h
      split at h
      · split at h <;> cases h
        rfl
      · obtain ⟨_, -, heq⟩ := Option.map_eq_some_iff.mp h
        exact (Prod.mk.inj heq).2.symm
  exact hrest ▸ digitRun_suffix cs

theorem exponentPart_suffix (h : exponentPart positive significand start cs = some (v, rest)) :
    rest <:+ cs := by
  by_cases hsign : ∀ c ∈ cs.head?, c ≠ '+' ∧ c ≠ '-'
  · rw [exponentPart_unsigned hsign] at h
    exact exponentPart_signed_suffix (.inl rfl) h
  · cases cs with
    | nil => exact absurd nofun hsign
    | cons c cs =>
      have hc : c = '+' ∨ c = '-' := by simpa [or_iff_not_imp_left] using hsign
      exact (exponentPart_signed_suffix hc h).trans (List.suffix_cons _ _)

theorem exponentIfAny_suffix (h : exponentIfAny positive significand start cs = some (v, rest)) :
    rest <:+ cs := by
  unfold exponentIfAny at h
  split at h
  · exact (exponentPart_suffix h).trans (List.suffix_cons _ _)
  · exact (exponentPart_suffix h).trans (List.suffix_cons _ _)
  · obtain ⟨_, -, heq⟩ := Option.map_eq_some_iff.mp h
    exact (Prod.mk.inj heq).2 ▸ List.suffix_rfl

theorem fractionPart_suffix (h : fractionPart positive significand start cs = some (v, rest)) :
    rest <:+ cs := by
  unfold fractionPart at h
  dsimp only at h
  split at h
  · cases h
  · exact (exponentIfAny_suffix h).trans (digitRun_suffix cs)

theorem numberAfterSign_suffix (h : numberAfterSign positive cs = some (v, rest)) :
    rest <:+ cs := by
  unfold numberAfterSign at h
  have hrun := digitRun_suffix cs
  generalize digitRun cs = run at h hrun
  obtain ⟨ds, tail⟩ := run
  refine List.IsSuffix.trans ?_ hrun
  dsimp only at h ⊢
  split at h
  · cases h
  · cases h
  split at h
  · exact (fractionPart_suffix h).trans (List.suffix_cons _ _)
  · exact (exponentPart_suffix h).trans (List.suffix_cons _ _)
  · exact (exponentPart_suffix h).trans (List.suffix_cons _ _)
  · split_ifs at h
    · cases h
      exact List.suffix_rfl
    · cases h
      exact List.suffix_rfl
    · cases h
      exact List.suffix_rfl
    · obtain ⟨_, -, heq⟩ := Option.map_eq_some_iff.mp h
      exact (Prod.mk.inj heq).2 ▸ List.suffix_rfl

theorem after?_suffix {letters : List Char} (h : Text.Chars.after? letters cs = some rest) :
    rest <:+ cs := by
  induction letters generalizing cs with
  | nil =>
    cases h
    exact List.suffix_rfl
  | cons l letters ih =>
    cases cs with
    | nil => cases h
    | cons c cs =>
      rw [Text.Chars.after?] at h
      split at h
      · exact (ih h).trans (List.suffix_cons _ _)
      · cases h

theorem scalar?_suffix {c : Char} (hc : c ≠ '"') (h : scalar? (c :: cs) = some (v, rest)) :
    rest <:+ c :: cs := by
  have hword : ∀ {letters v'}, word? letters v' cs = some (v, rest) → rest <:+ c :: cs := by
    intro letters v' hread
    obtain ⟨_, hafter, heq⟩ := Option.map_eq_some_iff.mp hread
    exact (Prod.mk.inj heq).2 ▸ (after?_suffix hafter).trans (List.suffix_cons _ _)
  unfold scalar? at h
  split at h
  · next heq => exact hword ((List.cons.inj heq).2 ▸ h)
  · next heq => exact hword ((List.cons.inj heq).2 ▸ h)
  · next heq => exact hword ((List.cons.inj heq).2 ▸ h)
  · next heq => exact absurd (List.cons.inj heq).1 hc
  · next heq =>
    rw [heq]
    exact (numberAfterSign_suffix h).trans (List.suffix_cons _ _)
  · exact numberAfterSign_suffix h

end Suffix

/-- No value begins with a blank or a structural character. -/
theorem scalar?_eq_none {c : Char} (hc : isBare c = false) (hquote : c ≠ '"') (cs : List Char) :
    scalar? (c :: cs) = none := by
  have hbreak := isBare_eq_false_iff.mp hc
  simp only [breaks, List.mem_cons, List.not_mem_nil, or_false] at hbreak
  rcases hbreak with rfl | rfl | rfl | rfl | rfl | rfl | rfl | rfl | rfl | rfl | rfl
  all_goals first | rfl | exact absurd rfl hquote

/-- A value without parts that is read in front of a break is the next token. -/
theorem exists_cut_of_scalar? {cs rest : List Char} {v : Value}
    (h : scalar? cs = some (v, rest)) (hrest : startsBare rest = false) :
    ∃ t, cs = t ++ rest ∧ Cut t rest ∧ scalar? t = some (v, []) := by
  cases cs with
  | nil => cases h
  | cons c cs =>
    by_cases hquote : c = '"'
    · subst hquote
      obtain ⟨⟨s, tail⟩, hstring, heq⟩ := Option.map_eq_some_iff.mp h
      obtain ⟨rfl, rfl⟩ := Prod.mk.inj heq
      obtain ⟨body, hspan, hread⟩ := string?_eq_some hstring
      have happend := append_literalSpan false cs
      rw [hspan] at happend
      refine ⟨'"' :: body, by rw [List.cons_append, happend], .literal (by rw [happend, hspan]), ?_⟩
      have hbody : string? body = some (s, []) := by simpa using hread []
      simp [scalar?, hbody]
    cases hbare : isBare c with
    | false =>
      rw [scalar?_eq_none hbare hquote] at h
      cases h
    | true =>
      have hx := startsBare_dropWhile cs
      have hw : ∀ d ∈ c :: cs.takeWhile isBare, isBare d = true :=
        List.forall_mem_cons.mpr ⟨hbare, fun d hd => List.mem_takeWhile_imp hd⟩
      have hsplit : c :: cs = c :: cs.takeWhile isBare ++ cs.dropWhile isBare := by simp
      rw [hsplit, scalar?_append hx hbare] at h
      obtain ⟨⟨v', tail⟩, hread, heq⟩ := Option.map_eq_some_iff.mp h
      obtain ⟨rfl, rfl⟩ := Prod.mk.inj heq
      -- What is left of the word is not read, but then the rest would go on with the word.
      cases tail with
      | nil => exact ⟨_, hsplit, .word hbare (List.forall_mem_cons.mp hw).2 hx, hread⟩
      | cons d tail =>
        have hd := hw d ((scalar?_suffix hquote hread).subset List.mem_cons_self)
        simp [startsBare, hd] at hrest

theorem scalar?_append_of_cut {t x : List Char} {v : Value} (hcut : Cut t x)
    (h : scalar? t = some (v, [])) : scalar? (t ++ x) = some (v, x) := by
  cases hcut with
  | punct hc =>
    obtain ⟨-, hquote, hbare⟩ := solid_of_isPunct hc
    rw [scalar?_eq_none hbare hquote] at h
    cases h
  | @literal s _ hs =>
    obtain ⟨⟨k, tail⟩, hstring, heq⟩ := Option.map_eq_some_iff.mp h
    obtain ⟨rfl, rfl⟩ := Prod.mk.inj heq
    obtain ⟨body, hspan, hread⟩ := string?_eq_some hstring
    have happend := append_literalSpan false s
    rw [hspan, List.append_nil] at happend
    obtain rfl : body = s := happend
    simp [scalar?, hread x]
  | word hc _ hx =>
    rw [scalar?_append hx hc, h]
    rfl

/-! ## Values -/

/-- The items of an array, with commas between them. -/
inductive Items (P : List (List Char) → Value → Prop) : List (List Char) → List Value → Prop where
  | last {ts : List (List Char)} {v : Value} : P ts v → Items P ts [v]
  | more {ts us : List (List Char)} {v : Value} {vs : List Value} : P ts v → Items P us vs →
      Items P (ts ++ [','] :: us) (v :: vs)

/-- The members of an object, with commas between them and a colon behind each key. -/
inductive Members (P : List (List Char) → Value → Prop) :
    List (List Char) → List (String × Value) → Prop where
  | last {s : List Char} {k : String} {ts : List (List Char)} {v : Value} :
      string? s = some (k, []) → P ts v → Members P (('"' :: s) :: [':'] :: ts) [(k, v)]
  | more {s : List Char} {k : String} {ts us : List (List Char)} {v : Value}
      {ms : List (String × Value)} : string? s = some (k, []) → P ts v → Members P us ms →
      Members P (('"' :: s) :: [':'] :: (ts ++ [','] :: us)) ((k, v) :: ms)

/-- A value the parts of which are as `P` says. -/
inductive IsNested (P : List (List Char) → Value → Prop) : List (List Char) → Value → Prop where
  | scalar {t : List Char} {v : Value} : scalar? t = some (v, []) → IsNested P [t] v
  | emptyArray : IsNested P [['['], [']']] (.arr [])
  | array {ts : List (List Char)} {vs : List Value} : Items P ts vs →
      IsNested P (['['] :: (ts ++ [[']']])) (.arr vs)
  | emptyObject : IsNested P [['{'], ['}']] (.obj [])
  | object {ts : List (List Char)} {ms : List (String × Value)} : Members P ts ms →
      IsNested P (['{'] :: (ts ++ [['}']])) (.obj (Dictionary.ofList ms))

/-- The tokens of a value in which arrays and objects stand at most so deep. -/
def IsValue : Nat → List (List Char) → Value → Prop
  | 0 => fun ts v => ∃ t, ts = [t] ∧ scalar? t = some (v, [])
  | depth + 1 => IsNested (IsValue depth)

/-! ## The reader -/

theorem length_skipSpace_le (cs : List Char) : (skipSpace cs).length ≤ cs.length :=
  List.length_dropWhile_le _ _

/-- A token of one character stands behind the blanks. -/
theorem exists_skipSpace {c : Char} {cs : List Char} {us : List (List Char)}
    (h : tokens cs = [c] :: us) :
    ∃ x, skipSpace cs = c :: x ∧ tokens x = us ∧ x.length < cs.length := by
  obtain ⟨x, hskip, -, hx⟩ := exists_cut h
  have hlength := length_skipSpace_le cs
  rw [hskip] at hlength
  exact ⟨x, hskip, hx, by simpa [Nat.succ_le_iff] using hlength⟩

/-- A number or a name at the beginning of a text has no blanks in front of it. -/
theorem startsBare_of_skipSpace {cs : List Char} (h : startsBare (skipSpace cs) = false) :
    startsBare cs = false := by
  cases cs with
  | nil => rfl
  | cons c cs =>
    cases hspace : isSpace c with
    | true =>
      rw [startsBare, List.head?_cons, Option.any_some, ← Bool.not_eq_true]
      exact fun hbare => by simp [(solid_of_isBare hbare).1] at hspace
    | false => rwa [skipSpace, List.dropWhile_cons_of_neg (by simp [hspace])] at h

theorem tokens_of_skipSpace {c : Char} {cs x : List Char} (hc : isPunct c = true)
    (h : skipSpace cs = c :: x) : tokens cs = [c] :: tokens x ∧ startsBare cs = false := by
  refine ⟨by rw [← tokens_skipSpace, h, tokens_punct hc], startsBare_of_skipSpace ?_⟩
  rw [h]
  exact (solid_of_isPunct hc).2.2

/-- The function reads what the grammar says, and leaves the tokens behind. -/
structure Reads (item : List Char → Option (Value × List Char))
    (P : List (List Char) → Value → Prop) : Prop where
  sound : ∀ {cs rest v}, item cs = some (v, rest) → startsBare rest = false →
    ∃ ts, tokens cs = ts ++ tokens rest ∧ P ts v
  complete : ∀ {cs ts us v}, P ts v → tokens cs = ts ++ us →
    ∃ rest, item cs = some (v, rest) ∧ tokens rest = us ∧ rest.length ≤ cs.length

section Parts

variable {item : List Char → Option (Value × List Char)} {P : List (List Char) → Value → Prop}
variable (h : Reads item P)
include h

theorem items?_sound {n : Nat} {cs rest : List Char} {vs : List Value}
    (hread : items? item n cs = some (vs, rest)) :
    ∃ ts, tokens cs = ts ++ [']'] :: tokens rest ∧ Items P ts vs := by
  induction n generalizing cs vs with
  | zero => cases hread
  | succ n ih =>
    obtain ⟨⟨v, tail⟩, hitem, hread⟩ := Option.bind_eq_some_iff.mp hread
    dsimp only at hread
    split at hread
    · next tail' hskip =>
      obtain ⟨htokens, hbreak⟩ := tokens_of_skipSpace rfl hskip
      obtain ⟨ts, hts, hv⟩ := h.sound hitem hbreak
      obtain ⟨⟨vs', tail''⟩, hmore, heq⟩ := Option.bind_eq_some_iff.mp hread
      cases heq
      obtain ⟨us, hus, hvs⟩ := ih hmore
      exact ⟨ts ++ [','] :: us, by rw [hts, htokens, hus]; simp, .more hv hvs⟩
    · next tail' hskip =>
      obtain ⟨htokens, hbreak⟩ := tokens_of_skipSpace rfl hskip
      obtain ⟨ts, hts, hv⟩ := h.sound hitem hbreak
      cases hread
      exact ⟨ts, by rw [hts, htokens], .last hv⟩
    · cases hread

theorem items?_complete {n : Nat} {cs : List Char} {ts us : List (List Char)} {vs : List Value}
    (hitems : Items P ts vs) (hts : tokens cs = ts ++ [']'] :: us) (hn : cs.length < n) :
    ∃ rest, items? item n cs = some (vs, rest) ∧ tokens rest = us ∧ rest.length ≤ cs.length := by
  induction hitems generalizing n cs with
  | last hv =>
    obtain ⟨n, rfl⟩ := Nat.exists_eq_succ_of_ne_zero (Nat.ne_zero_of_lt hn)
    obtain ⟨tail, hitem, htail, hlength⟩ := h.complete hv hts
    obtain ⟨x, hskip, hx, hlt⟩ := exists_skipSpace htail
    exact ⟨x, by simp [items?, hitem, hskip], hx, by omega⟩
  | more hv _ ih =>
    obtain ⟨n, rfl⟩ := Nat.exists_eq_succ_of_ne_zero (Nat.ne_zero_of_lt hn)
    obtain ⟨tail, hitem, htail, hlength⟩ := h.complete hv (by rw [hts, List.append_assoc])
    obtain ⟨x, hskip, hx, hlt⟩ := exists_skipSpace htail
    obtain ⟨rest, hmore, hrest, hle⟩ := ih (n := n) hx (by omega)
    exact ⟨rest, by simp [items?, hitem, hskip, hmore], hrest, by omega⟩

end Parts

/-! ### Objects -/

theorem key_sound {cs x rest : List Char} {k : String} (hskip : skipSpace cs = '"' :: x)
    (h : string? x = some (k, rest)) :
    ∃ s, tokens cs = ('"' :: s) :: tokens rest ∧ string? s = some (k, []) := by
  obtain ⟨s, hspan, hread⟩ := string?_eq_some h
  exact ⟨s, by rw [← tokens_skipSpace, hskip, tokens_quote, hspan], by simpa using hread []⟩

theorem key_complete {cs s : List Char} {us : List (List Char)} {k : String}
    (h : string? s = some (k, [])) (hs : tokens cs = ('"' :: s) :: us) :
    ∃ x, skipSpace cs = '"' :: (s ++ x) ∧ string? (s ++ x) = some (k, x) ∧ tokens x = us ∧
      x.length < cs.length := by
  obtain ⟨x, hskip, -, hx⟩ := exists_cut hs
  obtain ⟨body, hspan, hread⟩ := string?_eq_some h
  have happend := append_literalSpan false s
  rw [hspan, List.append_nil] at happend
  obtain rfl : body = s := happend
  have hlength := length_skipSpace_le cs
  rw [hskip] at hlength
  simp only [List.cons_append, List.length_cons, List.length_append] at hlength
  exact ⟨x, hskip, hread x, hx, by omega⟩

section Parts

variable {item : List Char → Option (Value × List Char)} {P : List (List Char) → Value → Prop}
variable (h : Reads item P)
include h

theorem members?_sound {n : Nat} {cs rest : List Char} {ms : List (String × Value)}
    (hread : members? item n cs = some (ms, rest)) :
    ∃ ts, tokens cs = ts ++ ['}'] :: tokens rest ∧ Members P ts ms := by
  induction n generalizing cs ms with
  | zero => cases hread
  | succ n ih =>
    unfold members? at hread
    split at hread
    · next x hskip =>
      obtain ⟨⟨k, tail⟩, hkey, hread⟩ := Option.bind_eq_some_iff.mp hread
      obtain ⟨s, hs, hk⟩ := key_sound hskip hkey
      dsimp only at hread
      split at hread
      · next value hskip =>
        obtain ⟨hcolon, -⟩ := tokens_of_skipSpace rfl hskip
        obtain ⟨⟨v, behind⟩, hitem, hread⟩ := Option.bind_eq_some_iff.mp hread
        dsimp only at hread
        split at hread
        · next more hskip =>
          obtain ⟨htokens, hbreak⟩ := tokens_of_skipSpace rfl hskip
          obtain ⟨ts, hts, hv⟩ := h.sound hitem hbreak
          obtain ⟨⟨ms', tail⟩, hmore, heq⟩ := Option.bind_eq_some_iff.mp hread
          cases heq
          obtain ⟨us, hus, hms⟩ := ih hmore
          exact ⟨('"' :: s) :: [':'] :: (ts ++ [','] :: us),
            by rw [hs, hcolon, hts, htokens, hus]; simp, .more hk hv hms⟩
        · next hskip =>
          obtain ⟨htokens, hbreak⟩ := tokens_of_skipSpace rfl hskip
          obtain ⟨ts, hts, hv⟩ := h.sound hitem hbreak
          cases hread
          exact ⟨('"' :: s) :: [':'] :: ts, by rw [hs, hcolon, hts, htokens]; simp, .last hk hv⟩
        · cases hread
      · cases hread
    · cases hread

theorem members?_complete {n : Nat} {cs : List Char} {ts us : List (List Char)}
    {ms : List (String × Value)} (hmembers : Members P ts ms)
    (hts : tokens cs = ts ++ ['}'] :: us) (hn : cs.length < n) :
    ∃ rest, members? item n cs = some (ms, rest) ∧ tokens rest = us ∧
      rest.length ≤ cs.length := by
  induction hmembers generalizing n cs with
  | last hk hv =>
    obtain ⟨n, rfl⟩ := Nat.exists_eq_succ_of_ne_zero (Nat.ne_zero_of_lt hn)
    obtain ⟨x, hskip, hkey, hx, hlt⟩ := key_complete hk hts
    obtain ⟨value, hcolon, hvalue, hlt'⟩ := exists_skipSpace hx
    obtain ⟨tail, hitem, htail, hle⟩ := h.complete hv hvalue
    obtain ⟨rest, hclose, hrest, hlt''⟩ := exists_skipSpace htail
    exact ⟨rest, by simp [members?, hskip, hkey, hcolon, hitem, hclose], hrest, by omega⟩
  | more hk hv _ ih =>
    obtain ⟨n, rfl⟩ := Nat.exists_eq_succ_of_ne_zero (Nat.ne_zero_of_lt hn)
    obtain ⟨x, hskip, hkey, hx, hlt⟩ := key_complete hk hts
    obtain ⟨value, hcolon, hvalue, hlt'⟩ := exists_skipSpace hx
    obtain ⟨tail, hitem, htail, hle⟩ := h.complete hv (hvalue.trans (List.append_assoc ..))
    obtain ⟨more, hcomma, hmore, hlt''⟩ := exists_skipSpace htail
    obtain ⟨rest, hread, hrest, hle'⟩ := ih (n := n) hmore (by omega)
    exact ⟨rest, by simp [members?, hskip, hkey, hcolon, hitem, hcomma, hread], hrest, by omega⟩

end Parts

/-! ### Whole values -/

theorem scalar?_of_skipSpace {depth : Nat} {cs rest : List Char} {v : Value}
    (h : scalar? (skipSpace cs) = some (v, rest)) : value? depth cs = some (v, rest) := by
  unfold value?
  split
  · next heq =>
    rw [heq, scalar?_eq_none (by decide) (by decide)] at h
    cases h
  · next heq =>
    rw [heq, scalar?_eq_none (by decide) (by decide)] at h
    cases h
  · exact h

/-- A scalar is the next token of a text exactly if the reader of scalars finds it there. -/
theorem scalar_complete {depth : Nat} {cs t : List Char} {us : List (List Char)} {v : Value}
    (h : scalar? t = some (v, [])) (ht : tokens cs = t :: us) :
    ∃ rest, value? depth cs = some (v, rest) ∧ tokens rest = us ∧ rest.length ≤ cs.length := by
  obtain ⟨x, hskip, hcut, hx⟩ := exists_cut ht
  have hlength := length_skipSpace_le cs
  rw [hskip, List.length_append] at hlength
  exact ⟨x, scalar?_of_skipSpace (hskip ▸ scalar?_append_of_cut hcut h), hx, by omega⟩

theorem scalar_sound {cs rest : List Char} {v : Value}
    (h : scalar? (skipSpace cs) = some (v, rest)) (hrest : startsBare rest = false) :
    ∃ t, tokens cs = [t] ++ tokens rest ∧ scalar? t = some (v, []) := by
  obtain ⟨t, ht, hcut, hread⟩ := exists_cut_of_scalar? h hrest
  exact ⟨t, by rw [← tokens_skipSpace, ht, hcut.tokens_append]; rfl, hread⟩

/-- A value does not begin with a character that closes an array or an object. -/
theorem IsValue.head_ne {depth : Nat} {ts : List (List Char)} {v : Value} (h : IsValue depth ts v) :
    ∃ t us, ts = t :: us ∧ t ≠ [']'] ∧ t ≠ ['}'] := by
  have hscalar : ∀ {t v}, scalar? t = some (v, []) → t ≠ [']'] ∧ t ≠ ['}'] := by
    intro t v ht
    constructor <;>
    · rintro rfl
      cases ht
  cases depth with
  | zero =>
    obtain ⟨t, rfl, ht⟩ := h
    exact ⟨t, [], rfl, hscalar ht⟩
  | succ depth =>
    cases h with
    | scalar ht => exact ⟨_, [], rfl, hscalar ht⟩
    | emptyArray | array | emptyObject | object => exact ⟨_, _, rfl, by decide, by decide⟩

theorem Items.head_ne {depth : Nat} {ts : List (List Char)} {vs : List Value}
    (h : Items (IsValue depth) ts vs) : ∃ t us, ts = t :: us ∧ t ≠ [']'] := by
  cases h with
  | last hv =>
    obtain ⟨t, us, rfl, hclose, -⟩ := hv.head_ne
    exact ⟨t, us, rfl, hclose⟩
  | more hv =>
    obtain ⟨t, us, rfl, hclose, -⟩ := hv.head_ne
    exact ⟨t, _, rfl, hclose⟩

theorem Members.head_ne {P : List (List Char) → Value → Prop} {ts : List (List Char)}
    {ms : List (String × Value)} (h : Members P ts ms) : ∃ t us, ts = t :: us ∧ t ≠ ['}'] := by
  cases h with
  | last | more => exact ⟨_, _, rfl, by simp⟩

section Brackets

variable {depth : Nat} {cs x rest : List Char}

theorem skipSpace_ne {c : Char} {t : List Char} {ts : List (List Char)} (hc : isPunct c = true)
    (ht : t ≠ [c]) (hts : tokens x = t :: ts) (y : List Char) : skipSpace x ≠ c :: y := fun h =>
  ht (List.cons.inj (hts.symm.trans (tokens_of_skipSpace hc h).1)).1

theorem value?_array {vs : List Value} (hopen : skipSpace cs = '[' :: x)
    (hclose : ∀ y, skipSpace x ≠ ']' :: y)
    (hitems : items? (value? depth) (x.length + 1) x = some (vs, rest)) :
    value? (depth + 1) cs = some (.arr vs, rest) := by
  rw [value?, hopen]
  simp [hitems]

theorem value?_object {ms : List (String × Value)} (hopen : skipSpace cs = '{' :: x)
    (hclose : ∀ y, skipSpace x ≠ '}' :: y)
    (hmembers : members? (value? depth) (x.length + 1) x = some (ms, rest)) :
    value? (depth + 1) cs = some (.obj (Dictionary.ofList ms), rest) := by
  rw [value?, hopen]
  simp [hmembers]

end Brackets

/-- The reader of values reads the values of the grammar. -/
theorem reads_value (depth : Nat) : Reads (value? depth) (IsValue depth) := by
  induction depth with
  | zero =>
    refine ⟨fun {cs rest v} h hrest => ?_, fun {cs ts us v} h hts => ?_⟩
    · unfold value? at h
      split at h
      · cases h
      · cases h
      · obtain ⟨t, ht, hread⟩ := scalar_sound h hrest
        exact ⟨[t], ht, t, rfl, hread⟩
    · obtain ⟨t, rfl, ht⟩ := h
      exact scalar_complete ht hts
  | succ depth ih =>
    refine ⟨fun {cs rest v} h hrest => ?_, fun {cs ts us v} h hts => ?_⟩
    · unfold value? at h
      split at h
      · next x hskip =>
        obtain ⟨hopen, -⟩ := tokens_of_skipSpace rfl hskip
        dsimp only at h
        split at h
        · next hclose =>
          cases h
          obtain ⟨hclose, -⟩ := tokens_of_skipSpace rfl hclose
          exact ⟨_, by rw [hopen, hclose]; rfl, .emptyArray⟩
        · obtain ⟨⟨vs, tail⟩, hitems, heq⟩ := Option.map_eq_some_iff.mp h
          cases heq
          obtain ⟨ts, hts, hvs⟩ := items?_sound ih hitems
          exact ⟨['['] :: (ts ++ [[']']]), by rw [hopen, hts]; simp, .array hvs⟩
      · next x hskip =>
        obtain ⟨hopen, -⟩ := tokens_of_skipSpace rfl hskip
        dsimp only at h
        split at h
        · next hclose =>
          cases h
          obtain ⟨hclose, -⟩ := tokens_of_skipSpace rfl hclose
          exact ⟨_, by rw [hopen, hclose]; rfl, .emptyObject⟩
        · obtain ⟨⟨ms, tail⟩, hmembers, heq⟩ := Option.map_eq_some_iff.mp h
          cases heq
          obtain ⟨ts, hts, hms⟩ := members?_sound ih hmembers
          exact ⟨['{'] :: (ts ++ [['}']]), by rw [hopen, hts]; simp, .object hms⟩
      · obtain ⟨t, ht, hread⟩ := scalar_sound h hrest
        exact ⟨[t], ht, .scalar hread⟩
    · cases h with
      | scalar ht => exact scalar_complete ht hts
      | emptyArray =>
        obtain ⟨x, hskip, hx, hlt⟩ := exists_skipSpace hts
        obtain ⟨rest, hclose, hrest, hlt'⟩ := exists_skipSpace hx
        exact ⟨rest, by simp [value?, hskip, hclose], hrest, by omega⟩
      | emptyObject =>
        obtain ⟨x, hskip, hx, hlt⟩ := exists_skipSpace hts
        obtain ⟨rest, hclose, hrest, hlt'⟩ := exists_skipSpace hx
        exact ⟨rest, by simp [value?, hskip, hclose], hrest, by omega⟩
      | array hvs =>
        obtain ⟨x, hskip, hx, hlt⟩ := exists_skipSpace hts
        have hx := hx.trans (List.append_assoc ..)
        obtain ⟨rest, hitems, hrest, hle⟩ := items?_complete ih hvs hx (Nat.lt_succ_self _)
        obtain ⟨t, us', rfl, hclose⟩ := hvs.head_ne
        exact ⟨rest, value?_array hskip (skipSpace_ne rfl hclose hx) hitems, hrest, by omega⟩
      | object hms =>
        obtain ⟨x, hskip, hx, hlt⟩ := exists_skipSpace hts
        have hx := hx.trans (List.append_assoc ..)
        obtain ⟨rest, hmembers, hrest, hle⟩ := members?_complete ih hms hx (Nat.lt_succ_self _)
        obtain ⟨t, us', rfl, hclose⟩ := hms.head_ne
        exact ⟨rest, value?_object hskip (skipSpace_ne rfl hclose hx) hmembers, hrest, by omega⟩

theorem tokens_eq_nil_iff {cs : List Char} : tokens cs = [] ↔ skipSpace cs = [] := by
  constructor
  · intro h
    cases hskip : skipSpace cs with
    | nil => rfl
    | cons c x =>
      rw [← tokens_skipSpace, hskip] at h
      have hsolid := List.head?_dropWhile_not isSpace cs
      rw [← skipSpace, hskip] at hsolid
      rw [tokens, if_neg (Bool.not_eq_true _ ▸ hsolid)] at h
      split_ifs at h
  · intro h
    rw [← tokens_skipSpace, h, tokens]

/-- A text is read as a value exactly if its tokens are those of the value. -/
theorem read?_eq_some_iff {text : String} {v : Value} :
    read? text = some v ↔ IsValue maxDepth (tokens text.toList) v := by
  have hreads := reads_value maxDepth
  constructor
  · intro h
    unfold read? at h
    split at h
    · next v' rest hvalue =>
      split at h
      · next hblank =>
        cases h
        have hrest : skipSpace rest = [] := List.isEmpty_iff.mp hblank
        obtain ⟨ts, hts, hv⟩ := hreads.sound hvalue (startsBare_of_skipSpace (hrest ▸ rfl))
        rw [tokens_eq_nil_iff.mpr hrest, List.append_nil] at hts
        exact hts ▸ hv
      · cases h
    · cases h
  · intro h
    obtain ⟨rest, hvalue, hrest, -⟩ := hreads.complete h (List.append_nil _).symm
    simp [read?, hvalue, tokens_eq_nil_iff.mp hrest]

/-- Texts of the same tokens are read alike. -/
theorem read?_congr {text text' : String} (h : tokens text.toList = tokens text'.toList) :
    read? text = read? text' :=
  Option.ext fun v => by rw [read?_eq_some_iff, read?_eq_some_iff, h]

end NetworkCompiler.Json
