import NetworkCompiler.Json.Reader
import NetworkCompiler.Text.Numeral

/-!
# TOML values and scalars

A TOML document in memory. Tables remember how they came about (`Origin`), because that decides
whether a later statement may extend them: a table that was named by a header is closed to dotted
keys, one that dotted keys made is closed to headers, an inline table is closed to both.
`Entries.update?` carries out one statement.

Readers for the values that have no parts: strings of the four forms, numbers, dates and times.
Each takes the characters at hand and returns the value and the rest, or nothing where the text
is no such value.
-/

namespace NetworkCompiler.Toml

/-! ## Values -/

/-- How a table came about. -/
inductive Origin where
  /-- It has a header of its own. -/
  | header
  /-- The header of a table inside it implies it. -/
  | implied
  /-- A dotted key implies it. -/
  | dotted
  /-- It is written in braces. -/
  | inline
  deriving DecidableEq, Repr

/-- A TOML value. Numbers with a fraction and dates have no use here but their kind. -/
inductive Value where
  | str (s : String)
  | int (n : Int)
  | real
  | bool (b : Bool)
  | date
  | arr (items : List Value)
  | table (origin : Origin) (entries : List (String × Value))
  /-- An array of tables, last table first; each has a header of its own. -/
  | tables (latestFirst : List (List (String × Value)))
  deriving Repr, Inhabited

/-- The contents of a table. -/
abbrev Entries := List (String × Value)

/-- Puts a value under a key, replacing the value it had. -/
def Entries.put (k : String) (v : Value) : Entries → Entries
  | [] => [(k, v)]
  | (k', v') :: es => if k = k' then (k, v) :: es else (k', v') :: Entries.put k v es

/-- The value under a key. -/
def Entries.get? (k : String) : Entries → Option Value
  | [] => none
  | (k', v') :: es => if k = k' then some v' else Entries.get? k es

/-- Follows `path` down from a table and changes the table at its end with `change`, which is told
how that table came about. Tables that are missing on the way are made, with origin `made`. A
dotted key may not pass through a table with a header. -/
def Entries.update? (made : Origin) (change : Origin → Entries → Option Entries) :
    Origin → List String → Entries → Option Entries
  | origin, [], es => change origin es
  | _, k :: path, es =>
    match es.get? k with
    | none => (Entries.update? made change made path []).map fun inner =>
        es.put k (.table made inner)
    | some (.table origin inner) =>
      if origin = .inline || (made = .dotted && origin = .header) then none
      else (Entries.update? made change origin path inner).map fun inner =>
        es.put k (.table origin inner)
    | some (.tables (latest :: earlier)) =>
      (Entries.update? made change .header path latest).map fun inner =>
        es.put k (.tables (inner :: earlier))
    | some _ => none

/-- Gives a table a header: it is new, or so far only implied by another header. -/
def Entries.declareTable? (k : String) (es : Entries) : Option Entries :=
  match es.get? k with
  | none => some (es.put k (.table .header []))
  | some (.table .implied inner) => some (es.put k (.table .header inner))
  | some _ => none

/-- Adds a table to an array of tables. -/
def Entries.declareItem? (k : String) (es : Entries) : Option Entries :=
  match es.get? k with
  | none => some (es.put k (.tables [[]]))
  | some (.tables items) => some (es.put k (.tables ([] :: items)))
  | some _ => none

/-- Puts a new key into the table at the end of a dotted path; a key can be set once. A path that
is not empty has to end in a table that dotted keys made. -/
def Entries.assign? (path : List String) (k : String) (v : Value) (es : Entries) :
    Option Entries :=
  Entries.update? .dotted
    (fun origin es =>
      if (origin = .dotted) ≠ !path.isEmpty then none
      else match es.get? k with
        | none => some (es.put k v)
        | some _ => none)
    .header path es

/-! ## Scalars -/

/-- A reader of part of a text. -/
abbrev Reader (α : Type) := List Char → Option (α × List Char)

/-- Whether a character is a blank within a line. -/
def isMargin (c : Char) : Bool := c = ' ' || c = '\t'

/-- Drops the blanks within a line. -/
def skipMargin (cs : List Char) : List Char := cs.dropWhile isMargin

/-- Whether a character may stand in a comment or a literal string. -/
def isPlain (c : Char) : Bool :=
  c = '\t' || (0x20 ≤ c.toNat && c.toNat ≠ 0x7F)

/-- A line feed, with or without a carriage return before it. -/
def newline? : List Char → Option (List Char)
  | '\n' :: cs => some cs
  | '\r' :: '\n' :: cs => some cs
  | _ => none

/-- Drops blanks and line ends. -/
def skipBlankLines : List Char → List Char
  | [] => []
  | ' ' :: cs | '\t' :: cs | '\n' :: cs => skipBlankLines cs
  | '\r' :: '\n' :: cs => skipBlankLines cs
  | c :: cs => c :: cs

/-! ## Strings -/

/-- The number of `count` hexadecimal digits that follow those of `n`. -/
def hexNumber? : Nat → Nat → Reader Nat
  | 0, n, cs => some (n, cs)
  | count + 1, n, c :: cs => (Json.hexValue? c).bind fun d => hexNumber? count (n * 16 + d) cs
  | _ + 1, _, [] => none

/-- The character of a number, unless it is a surrogate or too large. -/
def scalarChar? (n : Nat) : Option Char :=
  if n < 0xD800 || (0xDFFF < n && n < 0x110000) then some (Char.ofNat n) else none

/-- An escape behind its backslash. -/
def escape? : Reader Char
  | 'b' :: cs => some (Char.ofNat 8, cs)
  | 't' :: cs => some ('\t', cs)
  | 'n' :: cs => some ('\n', cs)
  | 'f' :: cs => some (Char.ofNat 12, cs)
  | 'r' :: cs => some ('\r', cs)
  | '"' :: cs => some ('"', cs)
  | '\\' :: cs => some ('\\', cs)
  | 'u' :: cs => do
    let (n, rest) ← hexNumber? 4 0 cs
    let c ← scalarChar? n
    pure (c, rest)
  | 'U' :: cs => do
    let (n, rest) ← hexNumber? 8 0 cs
    let c ← scalarChar? n
    pure (c, rest)
  | _ => none

/-- A basic string behind its opening quote. -/
def basicBody? : Nat → Reader (List Char)
  | 0, _ => none
  | _ + 1, [] => none
  | fuel + 1, c :: cs =>
    if c = '"' then some ([], cs)
    else if c = '\\' then do
      let (c, rest) ← escape? cs
      let (s, rest) ← basicBody? fuel rest
      pure (c :: s, rest)
    else if isPlain c then do
      let (s, rest) ← basicBody? fuel cs
      pure (c :: s, rest)
    else none

/-- A literal string behind its opening quote. -/
def literalBody? : Reader (List Char)
  | [] => none
  | c :: cs =>
    if c = '\'' then some ([], cs)
    else if isPlain c then (literalBody? cs).map fun (s, rest) => (c :: s, rest)
    else none

/-- The quotes at the end of a string of several lines: three close it, up to two more belong to
it. -/
def closingQuotes? (quote : Char) (cs : List Char) : Option (List Char × List Char) :=
  let quotes := cs.takeWhile (· = quote)
  let n := quotes.length
  if n < 3 then none
  else if 5 < n then some ([quote, quote], cs.drop 5)
  else some (List.replicate (n - 3) quote, cs.drop n)

/-- A basic string of several lines behind its opening quotes. -/
def multiBasicBody? : Nat → Reader (List Char)
  | 0, _ => none
  | _ + 1, [] => none
  | fuel + 1, c :: cs =>
    if c = '"' then
      match closingQuotes? '"' (c :: cs) with
      | some end_ => some end_
      | none => do
        let (s, rest) ← multiBasicBody? fuel cs
        pure (c :: s, rest)
    else if c = '\\' then
      match newline? (skipMargin cs) with
      | some rest => multiBasicBody? fuel (skipBlankLines rest)
      | none => do
        let (c, rest) ← escape? cs
        let (s, rest) ← multiBasicBody? fuel rest
        pure (c :: s, rest)
    else match newline? (c :: cs) with
      | some rest => do
        let (s, rest) ← multiBasicBody? fuel rest
        pure ('\n' :: s, rest)
      | none =>
        if isPlain c then do
          let (s, rest) ← multiBasicBody? fuel cs
          pure (c :: s, rest)
        else none

/-- A literal string of several lines behind its opening quotes. -/
def multiLiteralBody? : Nat → Reader (List Char)
  | 0, _ => none
  | _ + 1, [] => none
  | fuel + 1, c :: cs =>
    if c = '\'' then
      match closingQuotes? '\'' (c :: cs) with
      | some end_ => some end_
      | none => do
        let (s, rest) ← multiLiteralBody? fuel cs
        pure (c :: s, rest)
    else match newline? (c :: cs) with
      | some rest => do
        let (s, rest) ← multiLiteralBody? fuel rest
        pure ('\n' :: s, rest)
      | none =>
        if isPlain c then do
          let (s, rest) ← multiLiteralBody? fuel cs
          pure (c :: s, rest)
        else none

/-- A string on one line, as keys allow it too. -/
def lineString? : Reader String
  | '"' :: cs => (basicBody? (cs.length + 1) cs).map fun (s, rest) => (String.ofList s, rest)
  | '\'' :: cs => (literalBody? cs).map fun (s, rest) => (String.ofList s, rest)
  | _ => none

/-- Drops the line feed right behind the opening quotes. -/
def dropFirstNewline (cs : List Char) : List Char :=
  (newline? cs).getD cs

/-- A string of any of the four forms. -/
def string? : Reader String
  | '"' :: '"' :: '"' :: cs =>
    (multiBasicBody? (cs.length + 1) (dropFirstNewline cs)).map fun (s, rest) =>
      (String.ofList s, rest)
  | '\'' :: '\'' :: '\'' :: cs =>
    (multiLiteralBody? (cs.length + 1) (dropFirstNewline cs)).map fun (s, rest) =>
      (String.ofList s, rest)
  | cs => lineString? cs

/-! ## Numbers -/

/-- The value of a digit below a base. -/
def digitBelow? (base : Nat) (c : Char) : Option Nat :=
  (Json.hexValue? c).filter (· < base)

/-- The digits that follow those of `n`; single underscores may stand between digits. -/
def moreDigits (base : Nat) (n : Nat) : Reader Nat
  | [] => some (n, [])
  | '_' :: c :: cs =>
    match digitBelow? base c with
    | some d => moreDigits base (n * base + d) cs
    | none => none
  | c :: cs =>
    match digitBelow? base c with
    | some d => moreDigits base (n * base + d) cs
    | none => if c = '_' then none else some (n, c :: cs)

/-- One or more digits. -/
def digits? (base : Nat) : Reader Nat
  | c :: cs => (digitBelow? base c).bind fun d => moreDigits base d cs
  | [] => none

/-- A decimal number without sign and without leading zeros. -/
def decimal? : Reader Nat
  | '0' :: cs => some (0, cs)
  | cs => digits? 10 cs

/-- The sign in front of a number. -/
def signOf : List Char → Bool × List Char
  | '+' :: cs => (true, cs)
  | '-' :: cs => (false, cs)
  | cs => (true, cs)

/-- Keeps whole numbers within 64 bits. -/
def fit64? (n : Int) : Option Value :=
  if Text.fits64 n then some (.int n) else none

/-- A whole number. -/
def integer? : Reader Value
  | '0' :: 'x' :: cs => (digits? 16 cs).bind fun (n, rest) => (fit64? n).map (·, rest)
  | '0' :: 'o' :: cs => (digits? 8 cs).bind fun (n, rest) => (fit64? n).map (·, rest)
  | '0' :: 'b' :: cs => (digits? 2 cs).bind fun (n, rest) => (fit64? n).map (·, rest)
  | cs =>
    let (positive, cs) := signOf cs
    (decimal? cs).bind fun (n, rest) =>
      (fit64? (if positive then (n : Int) else -(n : Int))).map (·, rest)

/-- An exponent behind its mark. -/
def exponent? (cs : List Char) : Option (Int × List Char) :=
  let (positive, cs) := signOf cs
  (digits? 10 cs).map fun (n, rest) => (if positive then (n : Int) else -(n : Int), rest)

/-- The least number that rounds to no finite double. -/
def doubleLimit : Nat := Nat.pow 2 1024 - Nat.pow 2 970

/-- Whether `n * 10 ^ e` rounds to a finite double. -/
def isFinite (n : Nat) (e : Int) : Bool :=
  let point := (toString n).length + e
  n = 0 || point ≤ 308 ||
    (point = 309 && n * Nat.pow 10 e.toNat < doubleLimit * Nat.pow 10 (-e).toNat)

/-- A real number, which is refused where it is positive and rounds to no finite double. -/
def realValue? (positive : Bool) (n : Nat) (e : Int) : Option Value :=
  if positive && !isFinite n e then none else some .real

/-- How many digits a text begins with. -/
def digitCount (cs : List Char) : Nat :=
  (cs.takeWhile fun c => c.isDigit || c = '_').countP Char.isDigit

/-- A number with a fraction or an exponent, or one that is none. -/
def real? (cs : List Char) : Option (Value × List Char) :=
  let (positive, cs) := signOf cs
  match cs with
  | 'i' :: 'n' :: 'f' :: rest => some (.real, rest)
  | 'n' :: 'a' :: 'n' :: rest => some (.real, rest)
  | cs => do
    let (n, rest) ← decimal? cs
    match rest with
    | '.' :: rest =>
      let (_, behind) ← digits? 10 rest
      let places := digitCount rest
      let (m, _) ← moreDigits 10 n rest
      match behind with
      | 'e' :: rest | 'E' :: rest =>
        let (e, rest) ← exponent? rest
        (realValue? positive m (e - places)).map (·, rest)
      | rest => (realValue? positive m (-places)).map (·, rest)
    | 'e' :: rest | 'E' :: rest =>
      let (e, rest) ← exponent? rest
      (realValue? positive n e).map (·, rest)
    | _ => none

/-! ## Dates and times -/

/-- The number of exactly `count` digits. -/
def fixed? : Nat → Nat → Reader Nat
  | 0, n, cs => some (n, cs)
  | count + 1, n, c :: cs => (digitBelow? 10 c).bind fun d => fixed? count (n * 10 + d) cs
  | _ + 1, _, [] => none

/-- Expects one character. -/
def expect? (c : Char) : List Char → Option (List Char)
  | d :: cs => if c = d then some cs else none
  | [] => none

/-- The number of days of a month. -/
def daysOf (year month : Nat) : Nat :=
  if month = 2 then
    if year % 4 = 0 && (year % 100 ≠ 0 || year % 400 = 0) then 29 else 28
  else if month ∈ [4, 6, 9, 11] then 30 else 31

/-- A calendar date. -/
def date? (cs : List Char) : Option (List Char) := do
  let (year, rest) ← fixed? 4 0 cs
  let rest ← expect? '-' rest
  let (month, rest) ← fixed? 2 0 rest
  let rest ← expect? '-' rest
  let (day, rest) ← fixed? 2 0 rest
  if 1 ≤ month && month ≤ 12 && 1 ≤ day && day ≤ daysOf year month then pure rest else none

/-- A time of day. -/
def time? (cs : List Char) : Option (List Char) := do
  let (hour, rest) ← fixed? 2 0 cs
  let rest ← expect? ':' rest
  let (minute, rest) ← fixed? 2 0 rest
  let rest ← expect? ':' rest
  let (second, rest) ← fixed? 2 0 rest
  if hour ≤ 23 && minute ≤ 59 && second ≤ 60 then
    match rest with
    | '.' :: c :: cs =>
      if c.isDigit then pure (cs.dropWhile Char.isDigit) else pure ('.' :: c :: cs)
    | rest => pure rest
  else none

/-- The distance of a time from the universal one, if it is stated. -/
def offset (cs : List Char) : List Char :=
  match cs with
  | 'Z' :: rest | 'z' :: rest => rest
  | '+' :: rest | '-' :: rest =>
    let read : Option (List Char) := do
      let (hour, rest) ← fixed? 2 0 rest
      let rest ← expect? ':' rest
      let (minute, rest) ← fixed? 2 0 rest
      if hour ≤ 23 && minute ≤ 59 then pure rest else none
    read.getD cs
  | cs => cs

/-- A date, a time, or both. -/
def moment? (cs : List Char) : Option (Value × List Char) :=
  match date? cs with
  | some rest =>
    match rest with
    | 'T' :: more | 't' :: more | ' ' :: more =>
      match time? more with
      | some rest => some (.date, offset rest)
      | none => some (.date, rest)
    | rest => some (.date, rest)
  | none => (time? cs).map fun rest => (.date, rest)

/-- A number or a moment. -/
def numeral? (cs : List Char) : Option (Value × List Char) :=
  match moment? cs with
  | some r => some r
  | none =>
    match real? cs with
    | some r => some r
    | none => integer? cs

end NetworkCompiler.Toml
