/-!
# Cutting texts

Texts are cut at a character (`splitAt`, `cutAt?`, `cutAtLast?`), into lines (`lines`), or after
a given beginning (`after?`). The work is done on lists of characters, in `Chars`; the functions
on `String` only wrap it. `intercalate_splitAt` says that nothing is lost by cutting.

The characters that separate words and that trimming removes are those of the Unicode property
`White_Space`. `trim` drops a blank margin on both sides, `words` cuts a text at every run
of blanks. `isBlank_of_isWhitespace` says that every ASCII blank of the core library is one of
them.
-/

namespace NetworkCompiler.Text

namespace Chars

/-- The pieces between the occurrences of `sep`; there is one more piece than occurrences. -/
def splitAt (sep : Char) : List Char → List (List Char)
  | [] => [[]]
  | c :: cs =>
    match splitAt sep cs with
    | [] => [[c]]
    | piece :: rest => if c = sep then [] :: piece :: rest else (c :: piece) :: rest

theorem splitAt_ne_nil (sep : Char) (cs : List Char) : splitAt sep cs ≠ [] := by
  cases cs with
  | nil => simp [splitAt]
  | cons c cs =>
    rw [splitAt]
    split
    · simp
    · split <;> simp

theorem intercalate_splitAt (sep : Char) (cs : List Char) :
    [sep].intercalate (splitAt sep cs) = cs := by
  induction cs with
  | nil => rfl
  | cons c cs ih =>
    rw [splitAt]
    split
    · next h => exact absurd h (splitAt_ne_nil sep cs)
    · next piece rest h =>
      rw [h] at ih
      split
      · next hc => subst hc; rw [← ih]; simp [List.intercalate]
      · rw [← ih]
        cases rest <;> simp [List.intercalate]

/-- What stands before and after the first occurrence of `sep`. -/
def cutAt? (sep : Char) : List Char → Option (List Char × List Char)
  | [] => none
  | c :: cs =>
    if c = sep then some ([], cs) else (cutAt? sep cs).map fun (l, r) => (c :: l, r)

/-- What stands before and after the last occurrence of `sep`. -/
def cutAtLast? (sep : Char) (cs : List Char) : Option (List Char × List Char) :=
  (cutAt? sep cs.reverse).map fun (l, r) => (r.reverse, l.reverse)

/-- What follows `start` in a text that begins with it. -/
def after? : List Char → List Char → Option (List Char)
  | [], cs => some cs
  | _ :: _, [] => none
  | s :: start, c :: cs => if s = c then after? start cs else none

/-- What precedes `ending` in a text that ends with it. -/
def before? (ending cs : List Char) : Option (List Char) :=
  (after? ending.reverse cs.reverse).map List.reverse

/-- Drops one carriage return at the end, as a line end written in two characters has it. -/
def dropReturn (cs : List Char) : List Char :=
  (before? ['\r'] cs).getD cs

/-- The lines of a text: cut at every line feed, a carriage return just before it dropped, no
line behind a final line feed. -/
def lines (cs : List Char) : List (List Char) :=
  let pieces := splitAt '\n' cs
  let last := pieces.getLastD []
  pieces.dropLast.map dropReturn ++ if last.isEmpty then [] else [last]

end Chars

/-- The pieces of a text between the occurrences of `sep`. -/
def splitAt (sep : Char) (s : String) : List String :=
  (Chars.splitAt sep s.toList).map String.ofList

/-- What stands before and after the first occurrence of `sep`. -/
def cutAt? (sep : Char) (s : String) : Option (String × String) :=
  (Chars.cutAt? sep s.toList).map fun (l, r) => (String.ofList l, String.ofList r)

/-- What stands before and after the last occurrence of `sep`. -/
def cutAtLast? (sep : Char) (s : String) : Option (String × String) :=
  (Chars.cutAtLast? sep s.toList).map fun (l, r) => (String.ofList l, String.ofList r)

/-- What follows `start` in a text that begins with it. -/
def after? (start s : String) : Option String :=
  (Chars.after? start.toList s.toList).map String.ofList

/-- What precedes `ending` in a text that ends with it. -/
def before? (ending s : String) : Option String :=
  (Chars.before? ending.toList s.toList).map String.ofList

/-- The lines of a text. -/
def lines (s : String) : List String :=
  (Chars.lines s.toList).map String.ofList

/-- Every line followed by a line feed. -/
def unlines (ls : List String) : String :=
  String.join (ls.map (· ++ "\n"))

/-- The texts with `sep` between them. -/
def joinWith (sep : String) (ss : List String) : String :=
  sep.intercalate ss

/-! ## Blank characters -/

/-- The Unicode property `White_Space`. -/
def isBlank (c : Char) : Bool :=
  let n := c.toNat
  (0x09 ≤ n && n ≤ 0x0D) || n == 0x20 || n == 0x85 || n == 0xA0 || n == 0x1680 ||
    (0x2000 ≤ n && n ≤ 0x200A) || n == 0x2028 || n == 0x2029 || n == 0x202F || n == 0x205F ||
    n == 0x3000

theorem isBlank_of_isWhitespace {c : Char} (h : c.isWhitespace = true) : isBlank c = true := by
  simp only [Char.isWhitespace, Bool.or_eq_true, decide_eq_true_eq] at h
  rcases h with ((h | h) | h) | h <;> subst h <;> decide

namespace Chars

/-- Drops the blanks in front. -/
def trimStart (cs : List Char) : List Char :=
  cs.dropWhile isBlank

/-- Drops the blanks behind. -/
def trimEnd (cs : List Char) : List Char :=
  (cs.reverse.dropWhile isBlank).reverse

/-- Drops the blanks on both sides. -/
def trim (cs : List Char) : List Char :=
  trimEnd (trimStart cs)

/-- The word a reader is in the middle of, and the words behind it. -/
def wordsAux : List Char → List Char × List (List Char)
  | [] => ([], [])
  | c :: cs =>
    let (word, rest) := wordsAux cs
    if isBlank c then ([], if word.isEmpty then rest else word :: rest) else (c :: word, rest)

/-- The maximal runs of characters that are not blank, in order. -/
def words (cs : List Char) : List (List Char) :=
  let (word, rest) := wordsAux cs
  if word.isEmpty then rest else word :: rest

end Chars

/-- Drops the blanks in front of a text. -/
def trimStart (s : String) : String :=
  String.ofList (Chars.trimStart s.toList)

/-- Drops the blanks on both sides of a text. -/
def trim (s : String) : String :=
  String.ofList (Chars.trim s.toList)

/-- The words of a text. -/
def words (s : String) : List String :=
  (Chars.words s.toList).map String.ofList

end NetworkCompiler.Text
