import NetworkCompiler.Text.Split

/-!
# Words of the shell

A word is a row of parts: plain text, quoted text, and what is replaced when the word is used
(parameters, the output of commands, sums). `readWord?` takes a word off the front of a script.
Quoted text is kept apart from plain text, because only plain text is split and matched later.

`quote` writes a text as one word: single quotes around it, and every single quote in it written as
`'\''` (quote closed, an escaped quote, quote opened again). No expansion happens inside single
quotes, so nothing else needs an escape.
-/

namespace NetworkCompiler.Shell

/-- What is done with the value of a parameter. `empty` says whether an empty value counts as
none. -/
inductive ParameterUse where
  | value
  | length
  /-- The operand, if there is no value. -/
  | default (empty : Bool)
  /-- The operand, if there is no value, which it then is. -/
  | assign (empty : Bool)
  /-- The operand, if there is a value. -/
  | alternative (empty : Bool)
  /-- A fault, if there is no value. -/
  | require (empty : Bool)
  /-- The value without what the operand matches at its front. -/
  | dropFront (longest : Bool)
  /-- The value without what the operand matches at its end. -/
  | dropBack (longest : Bool)
  deriving DecidableEq, Repr, Inhabited

/-- Whether the operand is a pattern, whose quotes count even between double quotes. -/
def ParameterUse.takesPattern : ParameterUse → Bool
  | dropFront _ => true
  | dropBack _ => true
  | _ => false

/-- A part of a word. -/
inductive WordPart where
  | text (s : String)
  | quoted (s : String)
  /-- Parts between double quotes. -/
  | together (parts : List WordPart)
  | parameter (name : String) (use : ParameterUse) (operand : List WordPart)
  /-- The output of a script. -/
  | output (script : String)
  | arithmetic (parts : List WordPart)
  deriving Inhabited, Repr

/-- A word. -/
abbrev Word := List WordPart

namespace Word

/-- Puts a part in front of a word; neighbouring plain texts are one. -/
def add (p : WordPart) (w : Word) : Word :=
  match p, w with
  | .text s, .text t :: rest => .text (s ++ t) :: rest
  | p, w => p :: w

/-- A word that is plain text throughout. -/
def plain? : Word → Option String
  | [.text s] => some s
  | _ => none

/-- Whether any part of a word is quoted. -/
def isQuoted (w : Word) : Bool :=
  w.any fun
    | .quoted _ => true
    | .together _ => true
    | _ => false

mutual

/-- A part with its quotes dropped. -/
def partText : WordPart → String
  | .text s => s
  | .quoted s => s
  | .together parts => literal parts
  | .parameter name _ _ => "$" ++ name
  | .output script => "$(" ++ script ++ ")"
  | .arithmetic parts => "$((" ++ literal parts ++ "))"

/-- A word with its quotes dropped and nothing replaced. -/
def literal : List WordPart → String
  | [] => ""
  | p :: ps => partText p ++ literal ps

end

end Word

/-! ## Characters -/

/-- Whether a character may begin a name. -/
def isNameStart (c : Char) : Bool := c.isAlpha || c = '_'

/-- Whether a character may stand in a name. -/
def isNameChar (c : Char) : Bool := c.isAlphanum || c = '_'

/-- Whether a text is a name. -/
def isName (s : String) : Bool :=
  match s.toList with
  | [] => false
  | c :: cs => isNameStart c && cs.all isNameChar

/-- Whether a character is a parameter of its own. -/
def isSpecialParameter (c : Char) : Bool :=
  c ∈ ['@', '*', '#', '?', '-', '$', '!']

/-- Whether a character ends a word outside quotes. -/
def endsWord (c : Char) : Bool :=
  c ∈ [' ', '\t', '\n', ';', '&', '|', '<', '>', '(', ')']

/-! ## Finding ends -/

/-- What stands before the closing single quote, and what follows it. -/
def untilQuote? (cs : List Char) : Option (List Char × List Char) :=
  Text.Chars.cutAt? '\'' cs

/-- What stands before the closing back quote, escapes resolved, and what follows it. -/
def untilBackQuote? : List Char → Option (List Char × List Char)
  | [] => none
  | '`' :: cs => some ([], cs)
  | '\\' :: c :: cs =>
    (untilBackQuote? cs).map fun (l, r) =>
      (if c = '`' || c = '\\' || c = '$' then c :: l else '\\' :: c :: l, r)
  | c :: cs => (untilBackQuote? cs).map fun (l, r) => (c :: l, r)

/-- What stands before the closing double quote, escapes kept, and what follows it. -/
def untilDoubleQuote? : List Char → Option (List Char × List Char)
  | [] => none
  | '"' :: cs => some ([], cs)
  | '\\' :: c :: cs => (untilDoubleQuote? cs).map fun (l, r) => ('\\' :: c :: l, r)
  | c :: cs => (untilDoubleQuote? cs).map fun (l, r) => (c :: l, r)

/-- What stands before the closing parenthesis that belongs to `depth` open ones, and what
follows it; parentheses between quotes do not count. -/
def untilParenthesis? : Nat → Nat → List Char → Option (List Char × List Char)
  | 0, _, _ => none
  | _ + 1, _, [] => none
  | fuel + 1, depth, c :: cs =>
    let keep (front : List Char) (rest : Option (List Char × List Char)) :=
      rest.map fun (l, r) => (front ++ l, r)
    match c, cs with
    | ')', cs =>
      match depth with
      | 0 => some ([], cs)
      | depth + 1 => keep [')'] (untilParenthesis? fuel depth cs)
    | '(', cs => keep ['('] (untilParenthesis? fuel (depth + 1) cs)
    | '\\', d :: cs => keep ['\\', d] (untilParenthesis? fuel depth cs)
    | '\'', cs =>
      match untilQuote? cs with
      | some (l, r) => keep ('\'' :: l ++ ['\'']) (untilParenthesis? fuel depth r)
      | none => none
    | '"', cs =>
      match untilDoubleQuote? cs with
      | some (l, r) => keep ('"' :: l ++ ['"']) (untilParenthesis? fuel depth r)
      | none => none
    | c, cs => keep [c] (untilParenthesis? fuel depth cs)

/-- What stands before the end of a sum, and what follows it. -/
def untilSumEnd? (cs : List Char) : Option (List Char × List Char) :=
  match untilParenthesis? (cs.length + 1) 0 cs with
  | some (l, ')' :: r) => some (l, r)
  | _ => none

/-! ## Parameters -/

/-- The name of a parameter at the front of a text. -/
def parameterName? (braced : Bool) : List Char → Option (String × List Char)
  | [] => none
  | c :: cs =>
    if isNameStart c then
      some (String.ofList (c :: cs.takeWhile isNameChar), cs.dropWhile isNameChar)
    else if c.isDigit then
      if braced then
        some (String.ofList (c :: cs.takeWhile Char.isDigit), cs.dropWhile Char.isDigit)
      else some (c.toString, cs)
    else if isSpecialParameter c then some (c.toString, cs)
    else none

/-- What is done with a parameter, behind its name. -/
def parameterUse? : List Char → Option (ParameterUse × List Char)
  | ':' :: '-' :: cs => some (.default true, cs)
  | ':' :: '=' :: cs => some (.assign true, cs)
  | ':' :: '+' :: cs => some (.alternative true, cs)
  | ':' :: '?' :: cs => some (.require true, cs)
  | '-' :: cs => some (.default false, cs)
  | '=' :: cs => some (.assign false, cs)
  | '+' :: cs => some (.alternative false, cs)
  | '?' :: cs => some (.require false, cs)
  | '#' :: '#' :: cs => some (.dropFront true, cs)
  | '#' :: cs => some (.dropFront false, cs)
  | '%' :: '%' :: cs => some (.dropBack true, cs)
  | '%' :: cs => some (.dropBack false, cs)
  | cs => some (.value, cs)

/-! ## Reading words -/

/-- Where a row of parts ends. -/
inductive WordEnd where
  /-- Before a character that ends a word, or at the end of the script. -/
  | word
  /-- Before a double quote. -/
  | quote
  /-- Before a closing brace. -/
  | brace
  /-- At the end of the text. -/
  | all
  deriving DecidableEq, Repr

/-- Whether a row of parts ends in front of a text. -/
def WordEnd.isAt (e : WordEnd) (cs : List Char) : Bool :=
  match e, cs with
  | .word, [] => true
  | .word, c :: _ => endsWord c
  | .quote, '"' :: _ => true
  | .brace, '}' :: _ => true
  | .all, [] => true
  | _, _ => false

mutual

/-- Takes parts off a text up to their end. `inner` says whether they stand between double
quotes. -/
def parts? : Nat → Bool → WordEnd → List Char → Option (Word × List Char)
  | 0, _, _, _ => none
  | fuel + 1, inner, stop, cs =>
    if stop.isAt cs then some ([], cs)
    else
      match cs with
      | '\\' :: '\n' :: rest => parts? fuel inner stop rest
      | '"' :: rest =>
        if inner && stop = .brace then do
          let (p, rest) ← parts? fuel true .quote rest
          let (ps, rest) ← parts? fuel inner stop (rest.drop 1)
          pure (.together p :: ps, rest)
        else do
          let (p, rest) ← part? fuel inner ('"' :: rest)
          let (ps, rest) ← parts? fuel inner stop rest
          pure (Word.add p ps, rest)
      | cs => do
        let (p, rest) ← part? fuel inner cs
        let (ps, rest) ← parts? fuel inner stop rest
        pure (Word.add p ps, rest)

/-- Takes one part off a text. -/
def part? : Nat → Bool → List Char → Option (WordPart × List Char)
  | 0, _, _ => none
  | _ + 1, _, [] => none
  | fuel + 1, inner, c :: cs =>
    match c with
    | '\\' =>
      match inner, cs with
      | _, [] => some (.quoted "\\", [])
      | false, d :: rest => some (.quoted d.toString, rest)
      | true, d :: rest =>
        if d ∈ ['$', '`', '"', '\\'] then some (.quoted d.toString, rest)
        else some (.quoted "\\", d :: rest)
    | '`' => (untilBackQuote? cs).map fun (l, r) => (.output (String.ofList l), r)
    | '$' => dollar? fuel inner cs
    | c =>
      if inner then some (.quoted c.toString, cs)
      else if c = '\'' then (untilQuote? cs).map fun (l, r) => (.quoted (String.ofList l), r)
      else if c = '"' then do
        let (ps, rest) ← parts? fuel true .quote cs
        pure (.together ps, rest.drop 1)
      else some (.text c.toString, cs)

/-- Takes what follows a dollar sign off a text. -/
def dollar? : Nat → Bool → List Char → Option (WordPart × List Char)
  | 0, _, _ => none
  | fuel + 1, inner, cs =>
    match cs with
    | '(' :: '(' :: rest =>
      match untilSumEnd? rest with
      | some (l, r) => (parts? fuel true .all l).map fun (ps, _) => (.arithmetic ps, r)
      | none =>
        (untilParenthesis? (cs.length + 1) 0 ('(' :: rest)).map fun (l, r) =>
          (.output (String.ofList l), r)
    | '(' :: rest =>
      (untilParenthesis? (cs.length + 1) 0 rest).map fun (l, r) => (.output (String.ofList l), r)
    | '{' :: '#' :: '}' :: rest => some (.parameter "#" .value [], rest)
    | '{' :: '#' :: rest =>
      match parameterName? true rest with
      | some (name, '}' :: rest) => some (.parameter name .length [], rest)
      | _ => none
    | '{' :: rest => do
      let (name, rest) ← parameterName? true rest
      let (use, rest) ← parameterUse? rest
      let (operand, rest) ← parts? fuel (inner && !use.takesPattern) .brace rest
      if use = .value && !operand.isEmpty then none
      pure (.parameter name use operand, rest.drop 1)
    | cs =>
      match parameterName? false cs with
      | some (name, rest) => some (.parameter name .value [], rest)
      | none => some (if inner then .quoted "$" else .text "$", cs)

end

/-- Takes a word off the front of a script. -/
def readWord? (cs : List Char) : Option (Word × List Char) :=
  parts? (2 * cs.length + 2) false .word cs

/-- The parts of a text that stands as if between double quotes. -/
def readQuotedText? (cs : List Char) : Option Word :=
  (parts? (2 * cs.length + 2) true .all cs).map (·.1)

/-! ## Quoting -/

/-- The characters between the outer quotes. -/
def quoteBody : List Char → List Char
  | [] => []
  | c :: cs => if c = '\'' then '\'' :: '\\' :: '\'' :: '\'' :: quoteBody cs else c :: quoteBody cs

/-- A list of characters as one single-quoted word. -/
def quoteChars (cs : List Char) : List Char :=
  '\'' :: (quoteBody cs ++ ['\''])

/-- A text as one single-quoted word. -/
def quote (s : String) : String :=
  String.ofList (quoteChars s.toList)

end NetworkCompiler.Shell
