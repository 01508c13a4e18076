import NetworkCompiler.Shell.Word

/-!
# Patterns of the shell

A pattern is a row of marks, each of which matches one character or, for `any`, any number of
them. `Pattern.ofChars` reads one; `isMatch` decides whether it matches a whole text, and
`dropFront` and `dropBack` take the shortest or the longest match off an end of a text.
-/

namespace NetworkCompiler.Shell

/-- A mark of a pattern. -/
inductive PatternMark where
  | char (c : Char)
  /-- One character. -/
  | one
  /-- Any number of characters. -/
  | any
  /-- One character of some ranges, or of none of them. -/
  | among (negated : Bool) (ranges : List (Char × Char))
  deriving DecidableEq, Repr

/-- A pattern. -/
abbrev Pattern := List PatternMark

/-- A character of a pattern, and whether it was quoted. -/
abbrev PatternChar := Char × Bool

namespace Pattern

/-- The ranges of a named class of characters. -/
def classRanges? (name : String) : Option (List (Char × Char)) :=
  match name with
  | "digit" => some [('0', '9')]
  | "lower" => some [('a', 'z')]
  | "upper" => some [('A', 'Z')]
  | "alpha" => some [('A', 'Z'), ('a', 'z')]
  | "alnum" => some [('0', '9'), ('A', 'Z'), ('a', 'z')]
  | "xdigit" => some [('0', '9'), ('A', 'F'), ('a', 'f')]
  | "space" => some [('\t', '\r'), (' ', ' ')]
  | "blank" => some [('\t', '\t'), (' ', ' ')]
  | "punct" => some [('!', '/'), (':', '@'), ('[', (Char.ofNat 96)), ('\x7b', '~')]
  | _ => none

/-- The ranges of a bracket expression and what follows its end. -/
def ranges? : Nat → Bool → List PatternChar → Option (List (Char × Char) × List PatternChar)
  | 0, _, _ => none
  | _ + 1, _, [] => none
  | fuel + 1, first, (c, q) :: cs =>
    if c = ']' && !q && !first then some ([], cs)
    else
      match c, cs with
      | '[', (':', _) :: rest =>
        let name := String.ofList ((rest.takeWhile (·.1 ≠ ':')).map (·.1))
        match classRanges? name, rest.dropWhile (·.1 ≠ ':') with
        | some rs, _ :: (']', _) :: rest =>
          (ranges? fuel false rest).map fun (more, r) => (rs ++ more, r)
        | _, _ => (ranges? fuel false cs).map fun (more, r) => (('[', '[') :: more, r)
      | c, ('-', false) :: (d, p) :: rest =>
        if d = ']' && !p then
          (ranges? fuel false cs).map fun (more, r) => ((c, c) :: more, r)
        else (ranges? fuel false rest).map fun (more, r) => ((c, d) :: more, r)
      | c, cs => (ranges? fuel false cs).map fun (more, r) => ((c, c) :: more, r)

/-- A bracket expression behind its opening bracket. -/
def bracket? (cs : List PatternChar) : Option (PatternMark × List PatternChar) :=
  match cs with
  | ('!', false) :: rest | ('^', false) :: rest =>
    (ranges? (rest.length + 1) true rest).map fun (rs, r) => (.among true rs, r)
  | cs => (ranges? (cs.length + 1) true cs).map fun (rs, r) => (.among false rs, r)

/-- Reads a pattern; quoted characters match themselves. -/
def readChars : Nat → List PatternChar → Pattern
  | 0, _ => []
  | _ + 1, [] => []
  | fuel + 1, (c, quoted) :: cs =>
    if quoted then .char c :: readChars fuel cs
    else
      match c, cs with
      | '*', cs => .any :: readChars fuel cs
      | '?', cs => .one :: readChars fuel cs
      | '\\', (d, _) :: cs => .char d :: readChars fuel cs
      | '[', cs =>
        match bracket? cs with
        | some (m, rest) => m :: readChars fuel rest
        | none => .char '[' :: readChars fuel cs
      | c, cs => .char c :: readChars fuel cs

/-- Reads a pattern. -/
def ofChars (cs : List PatternChar) : Pattern := readChars (cs.length + 1) cs

/-- Whether a mark matches a character. -/
def markMatches : PatternMark → Char → Bool
  | .char c, d => c = d
  | .one, _ => true
  | .any, _ => true
  | .among negated ranges, d => ranges.any (fun (l, h) => l ≤ d && d ≤ h) != negated

/-- Whether a pattern matches a whole text. -/
def isMatch : Pattern → List Char → Bool
  | [], cs => cs.isEmpty
  | .any :: ps, [] => isMatch ps []
  | .any :: ps, c :: cs => isMatch ps (c :: cs) || isMatch (.any :: ps) cs
  | _ :: _, [] => false
  | m :: ps, c :: cs => markMatches m c && isMatch ps cs

/-- A text without its shortest or longest beginning that matches. -/
def dropFront (longest : Bool) (p : Pattern) (s : String) : String :=
  let cs := s.toList
  let cuts := (List.range (cs.length + 1)).filter fun n => isMatch p (cs.take n)
  match if longest then cuts.getLast? else cuts.head? with
  | some n => String.ofList (cs.drop n)
  | none => s

/-- A text without its shortest or longest end that matches. -/
def dropBack (longest : Bool) (p : Pattern) (s : String) : String :=
  let cs := s.toList
  let cuts := (List.range (cs.length + 1)).filter fun n => isMatch p (cs.drop n)
  match if longest then cuts.head? else cuts.getLast? with
  | some n => String.ofList (cs.take n)
  | none => s

end Pattern

end NetworkCompiler.Shell
