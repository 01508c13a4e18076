import NetworkCompiler.Json.Number
import NetworkCompiler.Text.Split

/-!
# Reading JSON

`read?` reads a whole document. A repeated key keeps its last value and keys come out ascending.
Arrays and objects may stand at most 127 deep, which is also what the recursion runs on: the
reader of one level is handed the reader of the level below.
-/

namespace NetworkCompiler.Json

/-- The blanks of the format. -/
def isSpace (c : Char) : Bool :=
  c = ' ' || c = '\n' || c = '\t' || c = '\r'

/-- Drops blanks. -/
def skipSpace (cs : List Char) : List Char :=
  cs.dropWhile isSpace

/-- The value of a hexadecimal digit. -/
def hexValue? (c : Char) : Option Nat :=
  let n := c.toNat
  if '0' ≤ c && c ≤ '9' then some (n - 48)
  else if 'a' ≤ c && c ≤ 'f' then some (n - 87)
  else if 'A' ≤ c && c ≤ 'F' then some (n - 55)
  else none

/-- The number of four hexadecimal digits. -/
def hexWord? : List Char → Option (Nat × List Char)
  | a :: b :: c :: d :: rest => do
    let a ← hexValue? a
    let b ← hexValue? b
    let c ← hexValue? c
    let d ← hexValue? d
    pure (((a * 16 + b) * 16 + c) * 16 + d, rest)
  | _ => none

/-- Whether a 16-bit unit begins a surrogate pair. -/
def isHighSurrogate (n : Nat) : Bool := 0xD800 ≤ n && n < 0xDC00

/-- Whether a 16-bit unit ends a surrogate pair. -/
def isLowSurrogate (n : Nat) : Bool := 0xDC00 ≤ n && n < 0xE000

/-- The character of a numbered escape, behind its `\u`. Surrogates must come in pairs. -/
def unicodeEscape? (cs : List Char) : Option (Char × List Char) := do
  let (n, rest) ← hexWord? cs
  if isLowSurrogate n then none
  else if isHighSurrogate n then
    match rest with
    | '\\' :: 'u' :: rest =>
      let (m, rest) ← hexWord? rest
      if isLowSurrogate m then
        pure (Char.ofNat ((n - 0xD800) * 0x400 + (m - 0xDC00) + 0x10000), rest)
      else none
    | _ => none
  else pure (Char.ofNat n, rest)

/-- The character of an escape, behind its backslash. -/
def escape? : List Char → Option (Char × List Char)
  | '"' :: cs => some ('"', cs)
  | '\\' :: cs => some ('\\', cs)
  | '/' :: cs => some ('/', cs)
  | 'b' :: cs => some (Char.ofNat 8, cs)
  | 'f' :: cs => some (Char.ofNat 12, cs)
  | 'n' :: cs => some ('\n', cs)
  | 'r' :: cs => some ('\r', cs)
  | 't' :: cs => some ('\t', cs)
  | 'u' :: cs => unicodeEscape? cs
  | _ => none

/-- Reads a string behind its opening quote; `fuel` bounds its characters. -/
def stringBody? : Nat → List Char → Option (List Char × List Char)
  | 0, _ => none
  | _ + 1, [] => none
  | fuel + 1, c :: cs =>
    if c = '"' then some ([], cs)
    else if c = '\\' then do
      let (c, rest) ← escape? cs
      let (s, rest) ← stringBody? fuel rest
      pure (c :: s, rest)
    else if c.toNat < 32 then none
    else do
      let (s, rest) ← stringBody? fuel cs
      pure (c :: s, rest)

/-- Reads a string behind its opening quote. -/
def string? (cs : List Char) : Option (String × List Char) :=
  (stringBody? (cs.length + 1) cs).map fun (s, rest) => (String.ofList s, rest)

/-- Expects the letters of a word. -/
def word? (letters : List Char) (v : Value) (cs : List Char) : Option (Value × List Char) :=
  (Text.Chars.after? letters cs).map (v, ·)

/-- Reads a value that has no parts. -/
def scalar? : List Char → Option (Value × List Char)
  | 'n' :: cs => word? ['u', 'l', 'l'] .null cs
  | 't' :: cs => word? ['r', 'u', 'e'] (.bool true) cs
  | 'f' :: cs => word? ['a', 'l', 's', 'e'] (.bool false) cs
  | '"' :: cs => (string? cs).map fun (s, rest) => (.str s, rest)
  | '-' :: cs => numberAfterSign false cs
  | cs => numberAfterSign true cs

/-- Reads the items of a list from the first on, each with `item`. -/
def items? (item : List Char → Option (Value × List Char)) :
    Nat → List Char → Option (List Value × List Char)
  | 0, _ => none
  | fuel + 1, cs => do
    let (v, rest) ← item cs
    match skipSpace rest with
    | ',' :: rest =>
      let (vs, rest) ← items? item fuel rest
      pure (v :: vs, rest)
    | ']' :: rest => pure ([v], rest)
    | _ => none

/-- Reads the members of an object from the first on, each value with `item`. -/
def members? (item : List Char → Option (Value × List Char)) :
    Nat → List Char → Option (List (String × Value) × List Char)
  | 0, _ => none
  | fuel + 1, cs =>
    match skipSpace cs with
    | '"' :: cs => do
      let (k, rest) ← string? cs
      match skipSpace rest with
      | ':' :: rest =>
        let (v, rest) ← item rest
        match skipSpace rest with
        | ',' :: rest =>
          let (ms, rest) ← members? item fuel rest
          pure ((k, v) :: ms, rest)
        | '}' :: rest => pure ([(k, v)], rest)
        | _ => none
      | _ => none
    | _ => none

/-- Reads a value in which arrays and objects stand at most `depth` deep. -/
def value? : Nat → List Char → Option (Value × List Char)
  | depth, cs =>
    match skipSpace cs with
    | '[' :: cs =>
      match depth with
      | 0 => none
      | depth + 1 =>
        match skipSpace cs with
        | ']' :: rest => some (.arr [], rest)
        | _ => (items? (value? depth) (cs.length + 1) cs).map fun (vs, rest) => (.arr vs, rest)
    | '{' :: cs =>
      match depth with
      | 0 => none
      | depth + 1 =>
        match skipSpace cs with
        | '}' :: rest => some (.obj [], rest)
        | _ => (members? (value? depth) (cs.length + 1) cs).map fun (ms, rest) =>
            (.obj (Dictionary.ofList ms), rest)
    | cs => scalar? cs

/-- How deep arrays and objects may stand. -/
def maxDepth : Nat := 127

/-- Reads a whole document. -/
def read? (text : String) : Option Value :=
  match value? maxDepth text.toList with
  | some (v, rest) => if (skipSpace rest).isEmpty then some v else none
  | none => none

end NetworkCompiler.Json
