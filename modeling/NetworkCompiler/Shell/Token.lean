import NetworkCompiler.Shell.Word
import NetworkCompiler.Text.Numeral

/-!
# Tokens of the shell

A script as a row of words, operators and line ends. The texts that redirections take from the
lines behind them (`HereDocument`) are collected on the way, in the order of the redirections
they belong to. What cannot be read becomes a token of its own, so that the commands in front of
it still count.
-/

namespace NetworkCompiler.Shell

/-- A token. -/
inductive Token where
  | word (w : Word)
  | operator (s : String)
  /-- A redirection, with the number of the channel if it is written. -/
  | redirection (channel : Option Nat) (s : String)
  | lineEnd
  | unreadable
  deriving Inhabited, Repr

/-- A text that is taken from the lines of a script, as one word. -/
abbrev HereDocument := Word

/-- A text that the lexer still has to take from the lines. -/
structure PendingDocument where
  delimiter : String
  /-- Whether tabs in front of lines are dropped. -/
  dropTabs : Bool
  /-- Whether the text stands for itself. -/
  quoted : Bool

/-- The line in front of a text, and what follows its end. -/
def cutLine (cs : List Char) : List Char × List Char :=
  (cs.takeWhile (· ≠ '\n'), (cs.dropWhile (· ≠ '\n')).drop 1)

/-- The lines up to the delimiter, and what follows it. -/
def documentLines (d : PendingDocument) : Nat → List Char → List Char × List Char
  | 0, cs => ([], cs)
  | _ + 1, [] => ([], [])
  | fuel + 1, cs =>
    let (line, rest) := cutLine cs
    let line := if d.dropTabs then line.dropWhile (· = '\t') else line
    if line = d.delimiter.toList then ([], rest)
    else
      let (body, rest) := documentLines d fuel rest
      (line ++ '\n' :: body, rest)

/-- Takes a text from the lines. -/
def readDocument? (d : PendingDocument) (cs : List Char) : Option (HereDocument × List Char) :=
  let (body, rest) := documentLines d (cs.length + 1) cs
  if d.quoted then some ([.quoted (String.ofList body)], rest)
  else (readQuotedText? body).map (·, rest)

/-- Takes all pending texts from the lines. -/
def readDocuments? : List PendingDocument → List Char → Option (List HereDocument × List Char)
  | [], cs => some ([], cs)
  | d :: ds, cs => do
    let (doc, rest) ← readDocument? d cs
    let (docs, rest) ← readDocuments? ds rest
    pure (doc :: docs, rest)

/-- The operators that are no redirections, longer ones first. -/
def operators : List String :=
  ["&&", "||", ";;", ";", "&", "|", "(", ")"]

/-- The redirections, longer ones first. -/
def redirections : List String :=
  ["<<-", "<<", "<&", ">&", ">>", ">|", "<>", "<", ">"]

/-- The first of some texts that a script begins with, and what follows. -/
def firstOf? (cs : List Char) : List String → Option (String × List Char)
  | [] => none
  | s :: ss =>
    match Text.Chars.after? s.toList cs with
    | some rest => some (s, rest)
    | none => firstOf? cs ss

/-- A redirection at the front of a script, with the digit in front of it. -/
def redirection? (cs : List Char) : Option (Option Nat × String × List Char) :=
  let digit := (cs.head?.bind Text.Chars.digit?)
  (firstOf? (if digit.isSome then cs.drop 1 else cs) redirections).map fun (s, rest) =>
    (digit, s, rest)

/-- Whether a script is at the end of a line, blanks and a remark aside. -/
def skipBlanks : List Char → List Char
  | ' ' :: cs => skipBlanks cs
  | '\t' :: cs => skipBlanks cs
  | '\\' :: '\n' :: cs => skipBlanks cs
  | '#' :: cs => cs.dropWhile (· ≠ '\n')
  | cs => cs

/-- The tokens of a script and the texts that are taken from its lines. -/
def tokensFrom : Nat → List PendingDocument → List Char → List Token × List HereDocument
  | 0, _, _ => ([.unreadable], [])
  | fuel + 1, pending, cs =>
    match skipBlanks cs with
    | [] =>
      match readDocuments? pending [] with
      | some (docs, _) => ([], docs)
      | none => ([.unreadable], [])
    | '\n' :: rest =>
      match readDocuments? pending rest with
      | none => ([.unreadable], [])
      | some (docs, rest) =>
        let (ts, more) := tokensFrom fuel [] rest
        (.lineEnd :: ts, docs ++ more)
    | cs =>
      match redirection? cs with
      | some (channel, s, rest) =>
        if s = "<<" || s = "<<-" then
          match readWord? (skipBlanks rest) with
          | none => ([.unreadable], [])
          | some (w, rest) =>
            let d : PendingDocument := ⟨Word.literal w, s = "<<-", Word.isQuoted w⟩
            let (ts, docs) := tokensFrom fuel (pending ++ [d]) rest
            (.redirection channel s :: .word w :: ts, docs)
        else
          let (ts, docs) := tokensFrom fuel pending rest
          (.redirection channel s :: ts, docs)
      | none =>
        match firstOf? cs operators with
        | some (s, rest) =>
          let (ts, docs) := tokensFrom fuel pending rest
          (.operator s :: ts, docs)
        | none =>
          match readWord? cs with
          | none => ([.unreadable], [])
          | some (w, rest) =>
            let (ts, docs) := tokensFrom fuel pending rest
            (.word w :: ts, docs)

/-- The tokens of a script and the texts that are taken from its lines. -/
def tokens (script : String) : List Token × List HereDocument :=
  let cs := script.toList
  tokensFrom (cs.length + 1) [] cs

end NetworkCompiler.Shell
