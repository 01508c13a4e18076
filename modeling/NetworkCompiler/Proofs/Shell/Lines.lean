import NetworkCompiler.ConfigUnit.Basic
import NetworkCompiler.Proofs.Text.Reading
import NetworkCompiler.Shell.Command

/-!
# Lines of scripts

`Command.ofLine?` reads a line of a script as one of the commands that scripts are made of, as a
shell would : what stands in front of an equals sign is the name of a variable, what stands in
front of a space the name of a program, and a word is read through its quotes (`literalWord?`).
`ofLine?_of_isPlain` says that every line is read back as the command it was written for.
-/

namespace NetworkCompiler.Shell

open ConfigUnit (isIdentifierChar isIdentifier)
open Text.Chars (after? before? after?_append before?_append takeWhile_append_cons)

/-! ## Words -/

/-- Reads a word of single-quoted pieces and escaped characters, and what follows it. The first
argument tells whether a quote is open. -/
def literalWord? : Bool → List Char → Option (List Char × List Char)
  | true, [] => none
  | true, c :: cs =>
    if c = '\'' then literalWord? false cs
    else (literalWord? true cs).map fun (word, rest) => (c :: word, rest)
  | false, '\'' :: cs => literalWord? true cs
  | false, '\\' :: c :: cs => (literalWord? false cs).map fun (word, rest) => (c :: word, rest)
  | false, rest => some ([], rest)

/-- A quoted text is read back, whatever follows that is no part of the word. -/
theorem literalWord?_quoteChars (cs : List Char) {rest : List Char}
    (h : literalWord? false rest = some ([], rest)) :
    literalWord? false (quoteChars cs ++ rest) = some (cs, rest) := by
  have hbody : literalWord? true (quoteBody cs ++ '\'' :: rest) = some (cs, rest) := by
    induction cs with
    | nil => simpa [quoteBody, literalWord?] using h
    | cons c cs ih =>
      rw [quoteBody]
      split
      · next hc =>
        subst hc
        simp [literalWord?, ih]
      · next hc => simp [literalWord?, hc, ih]
  simpa [quoteChars, literalWord?] using hbody

/-! ## Variables -/

/-- The variable of a name. -/
def Variable.ofName? (name : List Char) : Option Variable :=
  if name = "pass".toList then some .pass
  else if name = "fail".toList then some .fail
  else if name = "fail_string".toList then some .failed
  else if name = "proceed".toList then some .proceed
  else (after? "u_".toList name).map fun label => .unit (String.ofList label)

theorem Variable.ofName?_name (v : Variable) : ofName? v.name.toList = some v := by
  cases v with
  | pass => rfl
  | fail => rfl
  | failed => rfl
  | proceed => rfl
  | unit label =>
    have hname : (name (unit label)).toList = "u_".toList ++ label.toList :=
      String.toList_append
    rw [ofName?, hname, if_neg (by simp), if_neg (by simp), if_neg (by simp), if_neg (by simp),
      after?_append, Option.map_some, String.ofList_toList]

/-- A variable whose name a shell reads as a whole. -/
def Variable.IsLegal (v : Variable) : Prop :=
  v.name.toList.all isIdentifierChar = true

instance (v : Variable) : Decidable v.IsLegal :=
  inferInstanceAs (Decidable (v.name.toList.all isIdentifierChar = true))

/-- Takes a variable off the front. -/
def takeVariable? (cs : List Char) : Option (Variable × List Char) :=
  (Variable.ofName? (cs.takeWhile isIdentifierChar)).map fun v =>
    (v, cs.dropWhile isIdentifierChar)

theorem takeVariable?_append {v : Variable} (hv : v.IsLegal) {c : Char}
    (hc : isIdentifierChar c = false) (rest : List Char) :
    takeVariable? (v.name.toList ++ c :: rest) = some (v, c :: rest) := by
  obtain ⟨htake, hdrop⟩ := takeWhile_append_cons (List.all_eq_true.mp hv) hc rest
  rw [takeVariable?, htake, hdrop, Variable.ofName?_name, Option.map_some]

/-! ## Lines -/

namespace Command

/-- Reads a digit that is given to a variable. -/
def digit? (v : Variable) : List Char → Option Command
  | [c] => (Text.Chars.digit? c).map (.setDigit v)
  | _ => none

/-- Reads a label that is put behind the labels of the units that failed. -/
def failure? (v : Variable) (cs : List Char) : Option Command :=
  (before? "\"".toList cs).bind fun label =>
    if v = .failed ∧ isIdentifier (String.ofList label) = true then
      some (.noteFailure (String.ofList label))
    else none

/-- Reads what stands behind the equals sign of a variable : nothing between quotes, the variable
and one more, the variable and a label behind it, or a digit. -/
def assignment? (v : Variable) (value : List Char) : Option Command :=
  if value = "\"\"".toList then some (.clear v)
  else if value = "$((".toList ++ v.name.toList ++ " + 1))".toList then some (.increment v)
  else
    match after? ("\"$".toList ++ v.name.toList ++ " ".toList) value with
    | some rest => failure? v rest
    | none => digit? v value

/-- Reads the comparison of a judgement. -/
def comparison? (cs : List Char) : Option (Polarity × List Char) :=
  match after? "= ".toList cs with
  | some rest => some (.passOnEqual, rest)
  | none => (after? "!= ".toList cs).map fun rest => (.passOnNotEqual, rest)

/-- Reads the branches of a judgement, in which one variable is set to 1 or to 0. -/
def branches? (cs : List Char) : Option Variable :=
  (takeVariable? cs).bind fun yes =>
    (after? "=1; else ".toList yes.2).bind fun cs =>
      (takeVariable? cs).bind fun no =>
        if no.2 = "=0; fi".toList ∧ yes.1 = no.1 then some yes.1 else none

/-- Reads what a judgement holds the output of an audit against, and what it sets. -/
def judge? (cs : List Char) : Option Command :=
  (comparison? cs).bind fun op =>
    (literalWord? false op.2).bind fun word =>
      (after? " ]; then ".toList word.2).bind fun cs =>
        (branches? cs).map fun v => .judge v op.1 (String.ofList word.1)

/-- A text that is printed, perhaps with the name of the machine behind it. -/
def printed? (text rest : List Char) : Option Command :=
  if rest = [] then some (.say (String.ofList text))
  else if rest = "\"$hostname\"".toList then some (.greet (String.ofList text))
  else none

/-- Reads what is printed : the totals, a text, or a text and the name of the machine. -/
def echo? (cs : List Char) : Option Command :=
  if cs = "\"pass=$pass fail=$fail failed:$fail_string\"".toList then some .summary
  else (literalWord? false cs).bind fun word => printed? word.1 word.2

/-- Reads what stands behind the name of a program. -/
def program? (name cs : List Char) : Option Command :=
  if name = "echo".toList then echo? cs
  else if name = "printf".toList then
    (after? "'%s\\n' ".toList cs).bind fun cs =>
      (literalWord? false cs).bind fun word =>
        if word.2 = [] then some (.print (String.ofList word.1)) else none
  else if name = "if".toList then (after? "[ \"$nc_out\" ".toList cs).bind judge?
  else none

/-- Reads what stands behind the equals sign of a name. -/
def value? (name cs : List Char) : Option Command :=
  if name = "hostname".toList then if cs = "$(hostname)".toList then some .lookUpHost else none
  else if name = "nc_out".toList then
    ((after? "$( \x7b ".toList cs).bind (before? "; \x7d 2>/dev/null )".toList)).map fun audit =>
      .capture (String.ofList audit)
  else (Variable.ofName? name).bind fun v => assignment? v cs

/-- Reads a line of a script. -/
def ofLine? (line : String) : Option Command :=
  let name := line.toList.takeWhile isIdentifierChar
  match line.toList.dropWhile isIdentifierChar with
  | '=' :: cs => value? name cs
  | ' ' :: cs => program? name cs
  | _ => none

/-! ## Written lines -/

theorem ofLine?_assignment {line : String} {name cs : List Char}
    (hline : line.toList = name ++ '=' :: cs)
    (hname : name.all isIdentifierChar = true) : ofLine? line = value? name cs := by
  have hc : isIdentifierChar '=' = false := by decide
  obtain ⟨htake, hdrop⟩ := takeWhile_append_cons (List.all_eq_true.mp hname) hc cs
  rw [ofLine?, hline, htake, hdrop]
  rfl

theorem ofLine?_program {line : String} {name cs : List Char}
    (hline : line.toList = name ++ ' ' :: cs)
    (hname : name.all isIdentifierChar = true) : ofLine? line = program? name cs := by
  have hc : isIdentifierChar ' ' = false := by decide
  obtain ⟨htake, hdrop⟩ := takeWhile_append_cons (List.all_eq_true.mp hname) hc cs
  rw [ofLine?, hline, htake, hdrop]
  rfl

theorem value?_name (v : Variable) (cs : List Char) :
    value? v.name.toList cs = assignment? v cs := by
  have hhostname : v.name.toList ≠ "hostname".toList := by
    cases v <;> simp [Variable.name, proceed]
  have houtput : v.name.toList ≠ "nc_out".toList := by
    cases v <;> simp [Variable.name, proceed]
  rw [value?, if_neg hhostname, if_neg houtput, Variable.ofName?_name, Option.bind_some]

theorem ofLine?_capture (audit : String) :
    ofLine? (outputName ++ "=$( \x7b " ++ audit ++ "; \x7d 2>/dev/null )") =
      some (.capture audit) := by
  have hline : (outputName ++ "=$( \x7b " ++ audit ++ "; \x7d 2>/dev/null )").toList =
      "nc_out".toList ++ '=' :: ("$( \x7b ".toList ++
        (audit.toList ++ "; \x7d 2>/dev/null )".toList)) := by
    simp [outputName]
  rw [ofLine?_assignment hline (by decide), value?, if_neg (by decide), if_pos rfl, after?_append,
    Option.bind_some, before?_append, Option.map_some, String.ofList_toList]

theorem toList_toString_digit : ∀ d < 10, (toString d).toList = [Nat.digitChar d] ∧
    Text.Chars.digit? (Nat.digitChar d) = some d ∧ '"' ≠ Nat.digitChar d ∧
      Nat.digitChar d ≠ '$' := by
  decide

theorem ofLine?_setDigit {v : Variable} (hv : v.IsLegal) {digit : Nat} (hdigit : digit < 10) :
    ofLine? (v.name ++ "=" ++ toString digit) = some (.setDigit v digit) := by
  have hline : (v.name ++ "=" ++ toString digit).toList =
      v.name.toList ++ '=' :: (toString digit).toList := by
    simp
  obtain ⟨hchar, hread, hquote, hdollar⟩ := toList_toString_digit digit hdigit
  have hafter : after? ("\"$".toList ++ v.name.toList ++ " ".toList) [digit.digitChar] = none := by
    simp [after?, hquote]
  rw [ofLine?_assignment hline hv, value?_name, assignment?, hchar, if_neg (by simp),
    if_neg (by simp [hdollar]), hafter]
  simp only [digit?, hread, Option.map_some]

theorem ofLine?_clear {v : Variable} (hv : v.IsLegal) :
    ofLine? (v.name ++ "=\"\"") = some (.clear v) := by
  have hline : (v.name ++ "=\"\"").toList = v.name.toList ++ '=' :: "\"\"".toList := by
    simp
  rw [ofLine?_assignment hline hv, value?_name, assignment?, if_pos rfl]

theorem ofLine?_increment {v : Variable} (hv : v.IsLegal) :
    ofLine? (v.name ++ "=$((" ++ v.name ++ " + 1))") = some (.increment v) := by
  have hline : (v.name ++ "=$((" ++ v.name ++ " + 1))").toList =
      v.name.toList ++ '=' :: ("$((".toList ++ v.name.toList ++ " + 1))".toList) := by
    simp
  rw [ofLine?_assignment hline hv, value?_name, assignment?, if_neg (by simp), if_pos rfl]

theorem ofLine?_noteFailure {label : String} (hlabel : isIdentifier label = true) :
    ofLine? (appendText .failed (" " ++ label)) = some (.noteFailure label) := by
  have hline : (appendText .failed (" " ++ label)).toList =
      (Variable.name .failed).toList ++ '=' ::
        ("\"$".toList ++ (Variable.name .failed).toList ++ " ".toList ++
          (label.toList ++ "\"".toList)) := by
    simp [appendText]
  rw [ofLine?_assignment hline (by decide), value?_name, assignment?, if_neg (by simp),
    if_neg (by simp), after?_append]
  simp only [failure?, before?_append, Option.bind_some, String.ofList_toList, hlabel, and_self,
    if_true]

/-! ## Printed texts -/

theorem ofLine?_say (text : String) : ofLine? ("echo " ++ quote text) = some (.say text) := by
  have hline : ("echo " ++ quote text).toList =
      "echo".toList ++ ' ' :: (quoteChars text.toList ++ []) := by
    simp [quote]
  rw [ofLine?_program hline (by decide), program?, if_pos rfl, echo?, if_neg (by simp [quoteChars]),
    literalWord?_quoteChars _ rfl, Option.bind_some, printed?, if_pos rfl, String.ofList_toList]

theorem ofLine?_greet (text : String) :
    ofLine? ("echo " ++ quote text ++ "\"$hostname\"") = some (.greet text) := by
  have hline : ("echo " ++ quote text ++ "\"$hostname\"").toList =
      "echo".toList ++ ' ' :: (quoteChars text.toList ++ "\"$hostname\"".toList) := by
    simp [quote]
  rw [ofLine?_program hline (by decide), program?, if_pos rfl, echo?, if_neg (by simp [quoteChars]),
    literalWord?_quoteChars _ rfl, Option.bind_some]
  dsimp only
  rw [printed?, if_neg (by simp), if_pos rfl, String.ofList_toList]

theorem ofLine?_print (text : String) :
    ofLine? ("printf '%s\\n' " ++ quote text) = some (.print text) := by
  have hline : ("printf '%s\\n' " ++ quote text).toList =
      "printf".toList ++ ' ' :: ("'%s\\n' ".toList ++ (quoteChars text.toList ++ [])) := by
    simp [quote]
  rw [ofLine?_program hline (by decide), program?, if_neg (by decide), if_pos rfl, after?_append,
    Option.bind_some, literalWord?_quoteChars _ rfl, Option.bind_some, if_pos rfl,
    String.ofList_toList]

/-! ## Judgements -/

theorem comparison?_append (polarity : Polarity) (rest : List Char) :
    comparison? ((comparison polarity).toList ++ ' ' :: rest) = some (polarity, rest) := by
  cases polarity <;> rfl

theorem branches?_append {v : Variable} (hv : v.IsLegal) :
    branches? (v.name.toList ++ ("=1; else ".toList ++ (v.name.toList ++ "=0; fi".toList))) =
      some v := by
  have hyes : takeVariable? (v.name.toList ++ ("=1; else ".toList ++ (v.name.toList ++
      "=0; fi".toList))) = some (v, "=1; else ".toList ++ (v.name.toList ++ "=0; fi".toList)) :=
    takeVariable?_append hv (by decide) _
  have hno : takeVariable? (v.name.toList ++ "=0; fi".toList) = some (v, "=0; fi".toList) :=
    takeVariable?_append hv (by decide) _
  rw [branches?, hyes, Option.bind_some, after?_append, Option.bind_some, hno, Option.bind_some]
  exact if_pos ⟨rfl, rfl⟩

theorem ofLine?_judge {v : Variable} (hv : v.IsLegal) (polarity : Polarity) (expected : String) :
    ofLine? (judgeText v polarity expected) = some (.judge v polarity expected) := by
  have hline : (judgeText v polarity expected).toList =
      "if".toList ++ ' ' :: ("[ \"$nc_out\" ".toList ++ ((comparison polarity).toList ++ ' ' ::
        (quoteChars expected.toList ++ (" ]; then ".toList ++ (v.name.toList ++
          ("=1; else ".toList ++ (v.name.toList ++ "=0; fi".toList))))))) := by
    delta judgeText
    simp [quote, outputName]
  rw [ofLine?_program hline (by decide), program?, if_neg (by decide), if_neg (by decide),
    if_pos rfl, after?_append, Option.bind_some, judge?, comparison?_append, Option.bind_some,
    literalWord?_quoteChars _ rfl, Option.bind_some, after?_append, Option.bind_some,
    branches?_append hv, Option.map_some, String.ofList_toList]

/-- The line of a command that is written on one line. -/
def IsPlain : Command → Prop
  | lookUpHost | summary | capture _ | say _ | greet _ | print _ => True
  | setDigit v digit => v.IsLegal ∧ digit < 10
  | clear v | increment v | judge v _ _ => v.IsLegal
  | noteFailure label => isIdentifier label = true
  | configure _ | whenZero _ _ | ifOne _ _ _ => False

/-- A plain command is written on one line and read back from it. -/
theorem ofLine?_of_isPlain {c : Command} (h : c.IsPlain) :
    ∃ line, c.nodes = [.line line] ∧ ofLine? line = some c := by
  cases c with
  | lookUpHost => exact ⟨_, rfl, rfl⟩
  | setDigit v digit => exact ⟨_, rfl, ofLine?_setDigit h.1 h.2⟩
  | clear v => exact ⟨_, rfl, ofLine?_clear h⟩
  | capture audit => exact ⟨_, rfl, ofLine?_capture audit⟩
  | judge v polarity expected => exact ⟨_, rfl, ofLine?_judge h polarity expected⟩
  | configure command => exact h.elim
  | increment v => exact ⟨_, rfl, ofLine?_increment h⟩
  | noteFailure label => exact ⟨_, rfl, ofLine?_noteFailure h⟩
  | say text => exact ⟨_, rfl, ofLine?_say text⟩
  | greet text => exact ⟨_, rfl, ofLine?_greet text⟩
  | print text => exact ⟨_, rfl, ofLine?_print text⟩
  | summary => exact ⟨_, rfl, rfl⟩
  | whenZero v body => exact h.elim
  | ifOne v yes no => exact h.elim

end Command

end NetworkCompiler.Shell
