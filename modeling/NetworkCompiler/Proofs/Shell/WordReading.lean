import NetworkCompiler.Proofs.Shell.Documents

/-!
# What stands behind a word

A shell reads a word up to the first character that ends it, so what stands behind this character
does not matter. `Keeps` says it of any reading : what is read in front of something is read in
front of everything that begins so. It holds of the searches for closing quotes and parentheses
(`untilParenthesis?_append`) and of the names and uses of parameters (`parameterName?_append`,
`parameterUse?_append`). Rows of parts, parts and what follows a dollar sign are read by each other,
so for these it is one induction on the bound of the reading (`keepsAll`), with one case for each
way to read (`ReadsParts`, `ReadsDollar`). So a word in front of a blank is the same word in front
of every text that begins with the blank (`readWord?_append`).

Only a reading that leaves something is kept : a backslash at the end of a text is a character, and
in front of another one it is an escape.
-/

namespace NetworkCompiler.Shell

open Text.Chars (cutAt?_append_cons cutAt?_eq_some)

/-! ## Ends -/

section Ends

variable {fuel depth : Nat} {cs l r : List Char}

theorem untilQuote?_append (h : untilQuote? cs = some (l, r)) (t : List Char) :
    untilQuote? (cs ++ t) = some (l, r ++ t) := by
  obtain ⟨rfl, hquote⟩ := cutAt?_eq_some.mp h
  rw [untilQuote?, List.append_assoc]
  exact cutAt?_append_cons hquote (r ++ t)

theorem length_untilQuote? (h : untilQuote? cs = some (l, r)) : r.length < cs.length := by
  obtain ⟨rfl, -⟩ := cutAt?_eq_some.mp h
  rw [List.length_append, List.length_cons]
  omega

theorem untilBackQuote?_append (h : untilBackQuote? cs = some (l, r)) (t : List Char) :
    untilBackQuote? (cs ++ t) = some (l, r ++ t) := by
  fun_induction untilBackQuote? cs generalizing l r with
  | case1 => cases h
  | case2 cs => cases h; rfl
  | case3 c cs ih =>
    obtain ⟨⟨l', r'⟩, hread, hpair⟩ := Option.map_eq_some_iff.mp h
    cases hpair
    simp [untilBackQuote?, ih hread]
  | case4 c cs hquote hescape ih =>
    obtain ⟨⟨l', r'⟩, hread, hpair⟩ := Option.map_eq_some_iff.mp h
    cases hpair
    cases cs with
    | nil => cases hread
    | cons d cs =>
      rw [List.cons_append, untilBackQuote?, ih hread]
      · rfl
      · exact hquote
      · intro e rest hc
        simpa using hescape d cs hc

theorem untilDoubleQuote?_append (h : untilDoubleQuote? cs = some (l, r)) (t : List Char) :
    untilDoubleQuote? (cs ++ t) = some (l, r ++ t) ∧ r.length < cs.length := by
  fun_induction untilDoubleQuote? cs generalizing l r with
  | case1 => cases h
  | case2 cs => cases h; exact ⟨rfl, by simp⟩
  | case3 c cs ih =>
    obtain ⟨⟨l', r'⟩, hread, hpair⟩ := Option.map_eq_some_iff.mp h
    cases hpair
    obtain ⟨hread', hlength⟩ := ih hread
    refine ⟨by simp [untilDoubleQuote?, hread'], ?_⟩
    simp only [List.length_cons]
    omega
  | case4 c cs hquote hescape ih =>
    obtain ⟨⟨l', r'⟩, hread, hpair⟩ := Option.map_eq_some_iff.mp h
    cases hpair
    obtain ⟨hread', hlength⟩ := ih hread
    refine ⟨?_, by rw [List.length_cons]; omega⟩
    cases cs with
    | nil => cases hread
    | cons d cs =>
      rw [List.cons_append, untilDoubleQuote?, hread']
      · rfl
      · exact hquote
      · intro e rest hc
        simpa using hescape d cs hc

/-- What a search for a closing parenthesis passes over at once : an escape, what stands between
quotes, or one character. -/
def passed? : List Char → Option (List Char × List Char)
  | [] => none
  | '\\' :: d :: cs => some (['\\', d], cs)
  | '\'' :: cs => (untilQuote? cs).map fun (l, r) => ('\'' :: l ++ ['\''], r)
  | '"' :: cs => (untilDoubleQuote? cs).map fun (l, r) => ('"' :: l ++ ['"'], r)
  | c :: cs => some ([c], cs)

/-- The ways in which a closing parenthesis is found. -/
inductive FindsParenthesis (fuel : Nat) : Nat → List Char → List Char → List Char → Prop where
  | found {cs : List Char} : FindsParenthesis fuel 0 (')' :: cs) [] cs
  | closed {depth : Nat} {cs l r : List Char} : untilParenthesis? fuel depth cs = some (l, r) →
      FindsParenthesis fuel (depth + 1) (')' :: cs) (')' :: l) r
  | opened {depth : Nat} {cs l r : List Char} :
      untilParenthesis? fuel (depth + 1) cs = some (l, r) →
      FindsParenthesis fuel depth ('(' :: cs) ('(' :: l) r
  | passed {depth : Nat} {cs front rest l r : List Char} : cs.head? ≠ some ')' →
      cs.head? ≠ some '(' → passed? cs = some (front, rest) →
      untilParenthesis? fuel depth rest = some (l, r) →
      FindsParenthesis fuel depth cs (front ++ l) r

theorem map_append_eq_some {front : List Char} {found : Option (List Char × List Char)} :
    (found.map fun (l, r) => (front ++ l, r)) = some (l, r) ↔
      ∃ l', found = some (l', r) ∧ l = front ++ l' := by
  cases found with
  | none => simp
  | some cut => cases cut; simp [eq_comm, and_comm]

theorem untilParenthesis?_eq_some : untilParenthesis? (fuel + 1) depth cs = some (l, r) ↔
    FindsParenthesis fuel depth cs l r := by
  constructor
  · intro h
    unfold untilParenthesis? at h
    split at h
    · cases h
    · cases h
    next n fuel' _ c cs hfuel =>
    obtain rfl := Nat.succ.inj hfuel
    dsimp only at h
    split at h
    · next cs =>
      split at h
      · cases h
        exact .found
      · obtain ⟨l, hread, rfl⟩ := map_append_eq_some.mp h
        exact .closed hread
    · obtain ⟨l, hread, rfl⟩ := map_append_eq_some.mp h
      exact .opened hread
    · obtain ⟨l, hread, rfl⟩ := map_append_eq_some.mp h
      exact .passed (by simp) (by simp) rfl hread
    · split at h
      · next hquote =>
        obtain ⟨l, hread, rfl⟩ := map_append_eq_some.mp h
        exact .passed (by simp) (by simp) (by rw [passed?, hquote]; rfl) hread
      · cases h
    · split at h
      · next hquote =>
        obtain ⟨l, hread, rfl⟩ := map_append_eq_some.mp h
        exact .passed (by simp) (by simp) (by rw [passed?, hquote]; rfl) hread
      · cases h
    · next hclose hopen hescape hsingle hdouble =>
      obtain ⟨l, hread, rfl⟩ := map_append_eq_some.mp h
      refine .passed (by simpa using hclose) (by simpa using hopen) ?_ hread
      rw [passed?] <;> assumption
  · intro h
    cases h with
    | found => rfl
    | closed hread => exact map_append_eq_some.mpr ⟨_, hread, rfl⟩
    | opened hread => exact map_append_eq_some.mpr ⟨_, hread, rfl⟩
    | passed hclose hopen hpassed hread =>
      fun_cases passed? cs with
      | case1 => cases hpassed
      | case2 d cs =>
        cases hpassed
        exact map_append_eq_some.mpr ⟨_, hread, rfl⟩
      | case3 cs =>
        obtain ⟨⟨l', r'⟩, hquote, hpair⟩ := Option.map_eq_some_iff.mp hpassed
        cases hpair
        rw [untilParenthesis?, hquote]
        exact map_append_eq_some.mpr ⟨_, hread, rfl⟩
      | case4 cs =>
        obtain ⟨⟨l', r'⟩, hquote, hpair⟩ := Option.map_eq_some_iff.mp hpassed
        cases hpair
        rw [untilParenthesis?, hquote]
        exact map_append_eq_some.mpr ⟨_, hread, rfl⟩
      | case5 c cs hescape hsingle hdouble =>
        have hclose : c ≠ ')' := by simpa using hclose
        have hopen : c ≠ '(' := by simpa using hopen
        have hpair : passed? (c :: cs) = some ([c], cs) := by rw [passed?] <;> assumption
        cases hpair.symm.trans hpassed
        rw [untilParenthesis?] <;> try assumption
        exact map_append_eq_some.mpr ⟨_, hread, rfl⟩

theorem untilParenthesis?_nil : untilParenthesis? fuel depth [] = none := by
  cases fuel <;> rfl

/-- What is passed over in front of something is passed over in front of everything that begins
so. -/
theorem passed?_append {front rest : List Char} (h : passed? cs = some (front, rest))
    (hrest : rest ≠ []) (t : List Char) :
    passed? (cs ++ t) = some (front, rest ++ t) ∧ rest.length < cs.length := by
  fun_cases passed? cs with
  | case1 => cases h
  | case2 d cs =>
    cases h
    exact ⟨rfl, by rw [List.length_cons, List.length_cons]; omega⟩
  | case3 cs =>
    obtain ⟨⟨l, r⟩, hquote, hpair⟩ := Option.map_eq_some_iff.mp h
    cases hpair
    have hlength := length_untilQuote? hquote
    rw [List.cons_append, passed?, untilQuote?_append hquote, List.length_cons]
    exact ⟨rfl, by omega⟩
  | case4 cs =>
    obtain ⟨⟨l, r⟩, hquote, hpair⟩ := Option.map_eq_some_iff.mp h
    cases hpair
    obtain ⟨hquote', hlength⟩ := untilDoubleQuote?_append hquote t
    rw [List.cons_append, passed?, hquote', List.length_cons]
    exact ⟨rfl, by omega⟩
  | case5 c cs hescape hsingle hdouble =>
    have hpair : passed? (c :: cs) = some ([c], cs) := by rw [passed?] <;> assumption
    cases hpair.symm.trans h
    obtain ⟨d, cs, rfl⟩ := List.exists_cons_of_ne_nil hrest
    rw [List.cons_append, passed?]
    · exact ⟨rfl, by simp⟩
    · exact fun _ _ hc _ => hescape d cs hc rfl
    · exact hsingle
    · exact hdouble

/-- A closing parenthesis is found whatever stands behind it, as soon as the search may go on to
the end of the text. -/
theorem untilParenthesis?_append (h : untilParenthesis? fuel depth cs = some (l, r)) {n : Nat}
    (hn : cs.length < n) (t : List Char) :
    untilParenthesis? n depth (cs ++ t) = some (l, r ++ t) := by
  induction fuel generalizing depth cs l n with
  | zero => cases h
  | succ fuel ih =>
    obtain ⟨n, rfl⟩ := Nat.exists_eq_add_one_of_ne_zero (Nat.ne_zero_of_lt hn)
    rw [untilParenthesis?_eq_some] at h ⊢
    cases h with
    | found => exact .found
    | closed hread => exact .closed (ih hread (Nat.lt_of_succ_lt_succ hn))
    | opened hread => exact .opened (ih hread (Nat.lt_of_succ_lt_succ hn))
    | passed hclose hopen hpassed hread =>
      have hne : cs ≠ [] := by
        rintro rfl
        cases hpassed
      have hrest : ∀ {rest}, untilParenthesis? fuel depth rest ≠ none → rest ≠ [] := by
        rintro _ hsome rfl
        exact hsome untilParenthesis?_nil
      obtain ⟨hpassed', hlength⟩ := passed?_append hpassed (hrest (by simp [hread])) t
      obtain ⟨c, cs, rfl⟩ := List.exists_cons_of_ne_nil hne
      exact .passed hclose hopen hpassed' (ih hread (by omega))

/-- What a closing parenthesis further out ends begins with what one further in ends. -/
theorem exists_untilParenthesis? (h : untilParenthesis? fuel (depth + 1) cs = some (l, r)) :
    ∃ l' r', untilParenthesis? fuel depth cs = some (l', r') ∧ r' ≠ [] := by
  induction fuel generalizing depth cs l with
  | zero => cases h
  | succ fuel ih =>
    simp only [untilParenthesis?_eq_some] at h ⊢
    cases h with
    | @closed _ cs l _ hread =>
      cases depth with
      | zero =>
        refine ⟨[], cs, .found, ?_⟩
        rintro rfl
        rw [untilParenthesis?_nil] at hread
        cases hread
      | succ depth =>
        obtain ⟨l', r', hread', hr'⟩ := ih hread
        exact ⟨_, r', .closed hread', hr'⟩
    | opened hread =>
      obtain ⟨l', r', hread', hr'⟩ := ih hread
      exact ⟨_, r', .opened hread', hr'⟩
    | passed hclose hopen hpassed hread =>
      obtain ⟨l', r', hread', hr'⟩ := ih hread
      exact ⟨_, r', .passed hclose hopen hpassed hread', hr'⟩

theorem untilSumEnd?_append (h : untilSumEnd? cs = some (l, r)) (t : List Char) :
    untilSumEnd? (cs ++ t) = some (l, r ++ t) := by
  unfold untilSumEnd? at h ⊢
  split at h
  · next l' r' hread =>
    cases h
    rw [untilParenthesis?_append hread (by rw [List.length_append]; omega) t]
    rfl
  · cases h

/-- Where a sum does not end, a text behind it does not end it, if the output of a command does. -/
theorem untilSumEnd?_append_eq_none (h : untilSumEnd? cs = none)
    (houtput : untilParenthesis? (fuel + 1) 0 ('(' :: cs) = some (l, r)) (t : List Char) :
    untilSumEnd? (cs ++ t) = none := by
  obtain ⟨l, hread, rfl⟩ := map_append_eq_some.mp houtput
  obtain ⟨l', r', hread', hr'⟩ := exists_untilParenthesis? hread
  have hsum := untilParenthesis?_append hread' (Nat.lt_succ_self _) []
  rw [List.append_nil, List.append_nil] at hsum
  unfold untilSumEnd? at h ⊢
  rw [hsum] at h
  rw [untilParenthesis?_append hread' (by rw [List.length_append]; omega) t]
  obtain ⟨c, r', rfl⟩ := List.exists_cons_of_ne_nil hr'
  by_cases hc : c = ')'
  · subst hc
    cases h
  · simp [hc]

end Ends

/-! ## Parameters -/

section Parameters

variable {cs r t : List Char}

theorem span_append {p : Char → Bool} (h : t = [] ∨ cs.dropWhile p ≠ []) :
    (cs ++ t).takeWhile p = cs.takeWhile p ∧ (cs ++ t).dropWhile p = cs.dropWhile p ++ t := by
  rcases h with rfl | h
  · simp
  · induction cs with
    | nil => exact absurd rfl h
    | cons c cs ih =>
      by_cases hc : p c = true
      · rw [List.dropWhile_cons_of_pos hc] at h
        simp [hc, ih h]
      · simp [hc]

theorem parameterName?_append {braced : Bool} {name : String}
    (h : parameterName? braced cs = some (name, r)) (hr : t = [] ∨ r ≠ []) :
    parameterName? braced (cs ++ t) = some (name, r ++ t) := by
  cases cs with
  | nil => cases h
  | cons c cs =>
    rw [parameterName?] at h
    rw [List.cons_append, parameterName?]
    split_ifs at h ⊢ with hname hdigit hbraced hspecial
    · cases h
      rw [(span_append hr).1, (span_append hr).2]
    · cases h
      rw [(span_append hr).1, (span_append hr).2]
    · cases h
      rfl
    · cases h
      rfl

theorem parameterName?_append_eq_none {braced : Bool} (h : parameterName? braced cs = none)
    (hcs : t = [] ∨ cs ≠ []) : parameterName? braced (cs ++ t) = none := by
  cases cs with
  | nil =>
    obtain rfl := hcs.resolve_right (· rfl)
    rfl
  | cons c cs =>
    rw [parameterName?] at h
    rw [List.cons_append, parameterName?]
    split_ifs at h ⊢
    rfl

theorem parameterUse?_append {use : ParameterUse} (h : parameterUse? cs = some (use, r))
    (hr : t = [] ∨ r ≠ [] ∧ r ≠ [':']) : parameterUse? (cs ++ t) = some (use, r ++ t) := by
  rcases hr with rfl | ⟨hne, hcolon⟩
  · rwa [List.append_nil, List.append_nil]
  obtain ⟨c, r, rfl⟩ := List.exists_cons_of_ne_nil hne
  unfold parameterUse? at h
  split at h <;> cases h <;> try rfl
  case h_10 hdouble => simp_all [parameterUse?]
  case h_12 hdouble => simp_all [parameterUse?]
  case h_13 => cases r <;> simp_all [parameterUse?]

end Parameters

/-! ## Ways to read -/

section Reading

variable {fuel n : Nat} {inner : Bool} {stop : WordEnd} {p : WordPart} {w : Word}
  {cs rest r t : List Char}

theorem head?_ne_some {d : Char} : cs.head? ≠ some d ↔ ∀ rest, cs ≠ d :: rest := by
  rw [Ne, List.head?_eq_some_iff, not_exists]

theorem part?_nil : part? fuel inner [] = none := by
  cases fuel <;> rfl

/-- The ways in which a row of parts is read : up to its end, past a line that is continued, or with
a part in front, which between double quotes in braces is one of its own. -/
inductive ReadsParts (fuel : Nat) (inner : Bool) (stop : WordEnd) :
    List Char → Word → List Char → Prop where
  | ended {cs : List Char} : stop.isAt cs = true → ReadsParts fuel inner stop cs [] cs
  | continued {rest r : List Char} {w : Word} : stop.isAt ('\\' :: '\n' :: rest) = false →
      parts? fuel inner stop rest = some (w, r) →
      ReadsParts fuel inner stop ('\\' :: '\n' :: rest) w r
  | together {cs rest r : List Char} {ps w : Word} : stop.isAt ('"' :: cs) = false →
      (inner && stop = .brace) = true → parts? fuel true .quote cs = some (ps, rest) →
      parts? fuel inner stop (rest.drop 1) = some (w, r) →
      ReadsParts fuel inner stop ('"' :: cs) (.together ps :: w) r
  | part {cs rest r : List Char} {p : WordPart} {w : Word} : stop.isAt cs = false →
      (∀ rest, cs ≠ '\\' :: '\n' :: rest) →
      (∀ rest, cs = '"' :: rest → (inner && stop = .brace) = false) →
      part? fuel inner cs = some (p, rest) → parts? fuel inner stop rest = some (w, r) →
      ReadsParts fuel inner stop cs (Word.add p w) r

theorem parts?_eq_some : parts? (fuel + 1) inner stop cs = some (w, r) ↔
    ReadsParts fuel inner stop cs w r := by
  constructor
  · intro h
    unfold parts? at h
    split at h
    · next hat =>
      cases h
      exact .ended hat
    next hat =>
    have hat : stop.isAt cs = false := by simpa using hat
    split at h
    · exact .continued hat h
    · split at h
      · next htogether =>
        simp only [Option.bind_eq_bind, Option.pure_def, Option.bind_eq_some_iff, Prod.exists,
          Option.some.injEq, Prod.mk.injEq] at h
        obtain ⟨ps, rest', hps, qs, r', hqs, rfl, rfl⟩ := h
        exact .together hat htogether hps hqs
      · next htogether =>
        simp only [Option.bind_eq_bind, Option.pure_def, Option.bind_eq_some_iff, Prod.exists,
          Option.some.injEq, Prod.mk.injEq] at h
        obtain ⟨p, rest', hp, ps, r', hps, rfl, rfl⟩ := h
        exact .part hat (by simp) (by simpa using htogether) hp hps
    · next hline hquote =>
      simp only [Option.bind_eq_bind, Option.pure_def, Option.bind_eq_some_iff, Prod.exists,
        Option.some.injEq, Prod.mk.injEq] at h
      obtain ⟨p, rest', hp, ps, r', hps, rfl, rfl⟩ := h
      exact .part hat hline (fun rest hcs => absurd hcs (hquote rest)) hp hps
  · intro h
    unfold parts?
    cases h with
    | ended hat => rw [if_pos hat]
    | continued hat hrest =>
      rw [if_neg (by simp [hat])]
      exact hrest
    | together hat htogether hparts hrest =>
      rw [if_neg (by simp [hat])]
      simp only [htogether, if_true, Option.bind_eq_bind, hparts, Option.bind_some, hrest]
      rfl
    | part hat hline htogether hpart hrest =>
      rw [if_neg (by simp [hat])]
      split
      · next rest => exact absurd rfl (hline rest)
      · next rest =>
        simp only [htogether rest rfl, Option.bind_eq_bind, hpart, Option.bind_some, hrest]
        rfl
      · simp only [Option.bind_eq_bind, hpart, Option.bind_some, hrest]
        rfl

/-- The ways in which something is read behind a dollar sign : a sum, the output of a command, a
parameter in braces or without them, or nothing that belongs to the dollar sign. -/
inductive ReadsDollar (fuel : Nat) (inner : Bool) :
    List Char → WordPart → List Char → Prop where
  | sum {rest l r e : List Char} {ps : Word} : untilSumEnd? rest = some (l, r) →
      parts? fuel true .all l = some (ps, e) →
      ReadsDollar fuel inner ('(' :: '(' :: rest) (.arithmetic ps) r
  | nested {rest l r : List Char} : untilSumEnd? rest = none →
      untilParenthesis? (('(' :: '(' :: rest).length + 1) 0 ('(' :: rest) = some (l, r) →
      ReadsDollar fuel inner ('(' :: '(' :: rest) (.output (String.ofList l)) r
  | output {rest l r : List Char} : rest.head? ≠ some '(' →
      untilParenthesis? (('(' :: rest).length + 1) 0 rest = some (l, r) →
      ReadsDollar fuel inner ('(' :: rest) (.output (String.ofList l)) r
  | count (rest : List Char) :
      ReadsDollar fuel inner ('{' :: '#' :: '}' :: rest) (.parameter "#" .value []) rest
  | length {rest r : List Char} {name : String} : rest.head? ≠ some '}' →
      parameterName? true rest = some (name, '}' :: r) →
      ReadsDollar fuel inner ('{' :: '#' :: rest) (.parameter name .length []) r
  | braced {rest behindName behindUse r : List Char} {name : String} {use : ParameterUse}
      {operand : Word} : rest.head? ≠ some '#' →
      parameterName? true rest = some (name, behindName) →
      parameterUse? behindName = some (use, behindUse) →
      parts? fuel (inner && !use.takesPattern) .brace behindUse = some (operand, r) →
      (use = .value && !operand.isEmpty) = false →
      ReadsDollar fuel inner ('{' :: rest) (.parameter name use operand) (r.drop 1)
  | named {cs r : List Char} {name : String} : cs.head? ≠ some '(' → cs.head? ≠ some '{' →
      parameterName? false cs = some (name, r) →
      ReadsDollar fuel inner cs (.parameter name .value []) r
  | bare {cs : List Char} : cs.head? ≠ some '(' → cs.head? ≠ some '{' →
      parameterName? false cs = none →
      ReadsDollar fuel inner cs (if inner then .quoted "$" else .text "$") cs

theorem dollar?_eq_some : dollar? (fuel + 1) inner cs = some (p, r) ↔
    ReadsDollar fuel inner cs p r := by
  constructor
  · intro h
    unfold dollar? at h
    split at h
    · split at h
      · next hsum =>
        obtain ⟨⟨ps, e⟩, hparts, hpair⟩ := Option.map_eq_some_iff.mp h
        cases hpair
        exact .sum hsum hparts
      · next hsum =>
        obtain ⟨⟨l, r⟩, hread, hpair⟩ := Option.map_eq_some_iff.mp h
        cases hpair
        exact .nested hsum hread
    · next rest hsum =>
      obtain ⟨⟨l, r⟩, hread, hpair⟩ := Option.map_eq_some_iff.mp h
      cases hpair
      exact .output (head?_ne_some.mpr hsum) hread
    · cases h
      exact .count _
    · next rest hcount =>
      split at h
      · next hname =>
        cases h
        exact .length (head?_ne_some.mpr hcount) hname
      · cases h
    · next rest hcount hlength =>
      simp only [Option.bind_eq_bind, Option.bind_eq_some_iff, Prod.exists] at h
      obtain ⟨name, behindName, hname, use, behindUse, huse, operand, r, hoperand, h⟩ := h
      split at h
      · cases h
      · next hvalue =>
        cases h
        exact .braced (head?_ne_some.mpr hlength) hname huse hoperand (by simpa using hvalue)
    · next hsum houtput hcount hlength hbrace =>
      split at h
      · next hname =>
        cases h
        exact .named (head?_ne_some.mpr houtput) (head?_ne_some.mpr hbrace) hname
      · next hname =>
        cases h
        exact .bare (head?_ne_some.mpr houtput) (head?_ne_some.mpr hbrace) hname
  · intro h
    cases h with
    | sum hsum hparts => simp [dollar?, hsum, hparts]
    | nested hsum hread => simp only [dollar?, hsum, hread, Option.map_some]
    | output hhead hread =>
      rw [dollar?, hread]
      · rfl
      · exact head?_ne_some.mp hhead
    | count rest => rfl
    | length hhead hname =>
      rw [dollar?, hname]
      · rfl
      · exact head?_ne_some.mp hhead
    | braced hhead hname huse hoperand hvalue =>
      rw [dollar?]
      · simp only [Option.bind_eq_bind, hname, Option.bind_some, huse, hoperand, hvalue]
        rfl
      · rintro rest rfl
        exact hhead rfl
      · exact head?_ne_some.mp hhead
    | named hopen hbrace hname =>
      rw [dollar?, hname]
      all_goals
        rintro rest rfl
        first | exact hopen rfl | exact hbrace rfl
    | bare hopen hbrace hname =>
      rw [dollar?, hname]
      all_goals
        rintro rest rfl
        first | exact hopen rfl | exact hbrace rfl

theorem eq_nil_of_parts?_nil (h : parts? fuel inner stop [] = some (w, r)) : r = [] := by
  cases fuel with
  | zero => cases h
  | succ fuel =>
    cases parts?_eq_some.mp h with
    | ended => rfl
    | part _ _ _ hpart => simp [part?_nil] at hpart

theorem eq_nil_of_part?_backslash (h : part? fuel inner ['\\'] = some (p, r)) : r = [] := by
  cases fuel with
  | zero => cases h
  | succ fuel =>
    unfold part? at h
    cases inner <;> cases h <;> rfl

theorem parts?_brace_nil : parts? fuel inner .brace [] = none := by
  rw [Option.eq_none_iff_forall_ne_some]
  rintro ⟨w, r⟩ h
  cases fuel with
  | zero => cases h
  | succ fuel =>
    cases parts?_eq_some.mp h with
    | ended hat => cases hat
    | part _ _ _ hpart => simp [part?_nil] at hpart

/-- A colon is not the end of a parameter. -/
theorem parts?_brace_colon : parts? fuel inner .brace [':'] = none := by
  rw [Option.eq_none_iff_forall_ne_some]
  rintro ⟨w, r⟩ h
  cases fuel with
  | zero => cases h
  | succ fuel =>
    cases parts?_eq_some.mp h with
    | ended hat => cases hat
    | part _ _ _ hpart hrest =>
      cases fuel with
      | zero => cases hpart
      | succ fuel =>
        cases inner <;> cases hpart <;> simp [parts?_brace_nil] at hrest

/-! ## What is kept -/

/-- What `f` reads in front of something is read by `g` as well if `t` stands behind it. -/
def Keeps {α : Type} (t : List Char) (f g : List Char → Option (α × List Char)) : Prop :=
  ∀ {cs x r}, f cs = some (x, r) → t = [] ∨ r ≠ [] → g (cs ++ t) = some (x, r ++ t)

/-- What is read with the bound `fuel` is read with the bound `n` as well if `t` stands behind
it. -/
structure KeepsAll (t : List Char) (fuel n : Nat) : Prop where
  parts : ∀ inner stop, Keeps t (parts? fuel inner stop) (parts? n inner stop)
  part : ∀ inner, Keeps t (part? fuel inner) (part? n inner)
  dollar : ∀ inner, Keeps t (dollar? fuel inner) (dollar? n inner)

theorem isAt_append (h : t = [] ∨ cs ≠ []) : stop.isAt (cs ++ t) = stop.isAt cs := by
  rcases h with rfl | h
  · rw [List.append_nil]
  · obtain ⟨c, cs, rfl⟩ := List.exists_cons_of_ne_nil h
    unfold WordEnd.isAt
    cases stop <;> grind

theorem drop_append (h : t = [] ∨ rest.drop 1 ≠ []) : (rest ++ t).drop 1 = rest.drop 1 ++ t := by
  rcases h with rfl | h
  · rw [List.append_nil, List.append_nil]
  · cases rest with
    | nil => exact absurd rfl h
    | cons c rest => rfl

theorem head?_append {d : Char} (h : cs.head? ≠ some d) (hne : t = [] ∨ cs ≠ []) :
    (cs ++ t).head? ≠ some d := by
  rcases hne with rfl | hne
  · rwa [List.append_nil]
  · obtain ⟨c, cs, rfl⟩ := List.exists_cons_of_ne_nil hne
    exact h

theorem keeps_parts? (ih : KeepsAll t fuel n) (inner : Bool) (stop : WordEnd) :
    Keeps t (parts? (fuel + 1) inner stop) (parts? (n + 1) inner stop) := by
  intro cs w r h hr
  rw [parts?_eq_some] at h ⊢
  cases h with
  | ended hat => exact .ended ((isAt_append hr).trans hat)
  | continued hat hrest =>
    exact .continued ((isAt_append (.inr (by simp))).trans hat) (ih.parts inner stop hrest hr)
  | @together cs rest r ps w hat htogether hparts hrest =>
    have hdrop : t = [] ∨ rest.drop 1 ≠ [] := hr.imp_right fun hne hnil =>
      hne (eq_nil_of_parts?_nil (hnil ▸ hrest))
    have hrest' : t = [] ∨ rest ≠ [] := hdrop.imp_right fun hne hnil => hne (by rw [hnil]; rfl)
    refine .together ((isAt_append (.inr (by simp))).trans hat) htogether
      (ih.parts true .quote hparts hrest') ?_
    rw [drop_append hdrop]
    exact ih.parts inner stop hrest hr
  | @part _ rest r p w hat hline htogether hpart hrest =>
    have hne : cs ≠ [] := by
      rintro rfl
      simp [part?_nil] at hpart
    have hrest' : t = [] ∨ rest ≠ [] := hr.imp_right fun hne hnil =>
      hne (eq_nil_of_parts?_nil (hnil ▸ hrest))
    refine .part ((isAt_append (.inr hne)).trans hat) ?_ ?_ (ih.part inner hpart hrest')
      (ih.parts inner stop hrest hr)
    · rintro rest' hcs
      obtain ⟨c, cs, rfl⟩ := List.exists_cons_of_ne_nil hne
      cases cs with
      | nil =>
        obtain ⟨rfl, htail⟩ := List.cons.inj hcs
        rcases hrest' with rfl | hne'
        · cases htail
        · exact hne' (eq_nil_of_part?_backslash hpart)
      | cons d cs =>
        obtain ⟨rfl, htail⟩ := List.cons.inj hcs
        obtain ⟨rfl, -⟩ := List.cons.inj htail
        exact hline cs rfl
    · intro rest' hcs
      obtain ⟨c, cs, rfl⟩ := List.exists_cons_of_ne_nil hne
      obtain ⟨rfl, -⟩ := List.cons.inj hcs
      exact htogether cs rfl

theorem keeps_part? (ih : KeepsAll t fuel n) (inner : Bool) :
    Keeps t (part? (fuel + 1) inner) (part? (n + 1) inner) := by
  intro cs p r h hr
  cases cs with
  | nil => cases h
  | cons c cs =>
    rw [List.cons_append]
    unfold part? at h ⊢
    split at h
    · -- an escape, which takes the next character with it if there is one
      cases cs with
      | nil =>
        have hread : (WordPart.quoted "\\", []) = (p, r) := by
          cases inner <;> exact Option.some.inj h
        cases hread
        obtain rfl := hr.resolve_right (· rfl)
        exact h
      | cons d cs =>
        cases inner with
        | false =>
          cases h
          rfl
        | true =>
          dsimp only [List.cons_append] at h ⊢
          split_ifs at h ⊢ <;> cases h <;> rfl
    · obtain ⟨⟨l, r'⟩, hread, hpair⟩ := Option.map_eq_some_iff.mp h
      cases hpair
      simp [untilBackQuote?_append hread t]
    · exact ih.dollar inner h hr
    · split_ifs at h ⊢ with hinner hsingle hdouble
      · cases h
        rfl
      · obtain ⟨⟨l, r'⟩, hread, hpair⟩ := Option.map_eq_some_iff.mp h
        cases hpair
        simp [untilQuote?_append hread t]
      · simp only [Option.bind_eq_bind, Option.pure_def, Option.bind_eq_some_iff, Prod.exists,
          Option.some.injEq, Prod.mk.injEq] at h
        obtain ⟨ps, rest, hps, rfl, rfl⟩ := h
        have hrest : t = [] ∨ rest ≠ [] := hr.imp_right fun hne hnil => hne (by rw [hnil]; rfl)
        simp only [Option.bind_eq_bind, ih.parts true .quote hps hrest, Option.bind_some,
          drop_append hr]
        rfl
      · cases h
        rfl

theorem keeps_dollar? (ih : KeepsAll t fuel n) (ih' : KeepsAll [] fuel n) (inner : Bool) :
    Keeps t (dollar? (fuel + 1) inner) (dollar? (n + 1) inner) := by
  intro cs p r h hr
  rw [dollar?_eq_some] at h ⊢
  cases h with
  | sum hsum hparts =>
    have hparts' := ih'.parts true .all hparts (.inl rfl)
    rw [List.append_nil] at hparts'
    exact .sum (untilSumEnd?_append hsum t) hparts'
  | nested hsum hread =>
    exact .nested (untilSumEnd?_append_eq_none hsum hread t)
      (untilParenthesis?_append hread (by simp; omega) t)
  | @output rest l _ hhead hread =>
    have hne : rest ≠ [] := by
      rintro rfl
      cases hread
    exact .output (head?_append hhead (.inr hne))
      (untilParenthesis?_append hread (by simp; omega) t)
  | count => exact .count _
  | @length rest _ name hhead hname =>
    have hne : rest ≠ [] := by
      rintro rfl
      cases hname
    exact .length (head?_append hhead (.inr hne)) (parameterName?_append hname (.inr (by simp)))
  | @braced rest behindName behindUse r name use operand hhead hname huse hoperand hvalue =>
    have hrest : t = [] ∨ r ≠ [] := hr.imp_right fun hne hnil => hne (by rw [hnil]; rfl)
    -- the operand ends at a brace, so something stands behind the use and behind the name
    have hbehindUse : behindUse ≠ [] ∧ behindUse ≠ [':'] := by
      constructor
      · rintro rfl
        simp [parts?_brace_nil] at hoperand
      · rintro rfl
        simp [parts?_brace_colon] at hoperand
    have hbehindName : behindName ≠ [] := by
      rintro rfl
      cases huse
      exact hbehindUse.1 rfl
    have hne : rest ≠ [] := by
      rintro rfl
      cases hname
    rw [← drop_append hr]
    exact .braced (head?_append hhead (.inr hne)) (parameterName?_append hname (.inr hbehindName))
      (parameterUse?_append huse (.inr hbehindUse)) (ih.parts _ .brace hoperand hrest) hvalue
  | named hopen hbrace hname =>
    have hne : cs ≠ [] := by
      rintro rfl
      cases hname
    exact .named (head?_append hopen (.inr hne)) (head?_append hbrace (.inr hne))
      (parameterName?_append hname hr)
  | bare hopen hbrace hname =>
    exact .bare (head?_append hopen hr) (head?_append hbrace hr)
      (parameterName?_append_eq_none hname hr)

theorem keepsAll (h : fuel ≤ n) (t : List Char) : KeepsAll t fuel n := by
  induction fuel generalizing n t with
  | zero => exact ⟨fun _ _ => nofun, fun _ => nofun, fun _ => nofun⟩
  | succ fuel ih =>
    obtain ⟨n, rfl⟩ := Nat.exists_eq_add_one_of_ne_zero (show n ≠ 0 by omega)
    have hle : fuel ≤ n := by omega
    exact ⟨keeps_parts? (ih hle t), keeps_part? (ih hle t), keeps_dollar? (ih hle t) (ih hle [])⟩

/-- A word that something stands behind is read in front of everything that begins so. -/
theorem readWord?_append (h : readWord? cs = some (w, r)) (hr : r ≠ []) (t : List Char) :
    readWord? (cs ++ t) = some (w, r ++ t) :=
  (keepsAll (by rw [List.length_append]; omega) t).parts false .word h (.inr hr)

end Reading

end NetworkCompiler.Shell
