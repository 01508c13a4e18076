import NetworkCompiler.Json.Value
import NetworkCompiler.Text.Split

/-!
# Printing JSON

`Value.compact` writes a value on one line without blanks, `Value.pretty` over several lines with
two blanks for each level and empty lists and objects closed at once. Strings escape the quote,
the backslash and the control characters only. A number with a fraction is written with the
fewest digits that read back: positionally while its point stands within sixteen digits before
or five zeros after the front, with an exponent otherwise.
-/

namespace NetworkCompiler.Json

/-- A digit of a hexadecimal number. -/
def hexDigit (n : Nat) : Char :=
  if n < 10 then Char.ofNat (48 + n) else Char.ofNat (87 + n)

/-- A character inside a string literal. -/
def escapeChar (c : Char) : List Char :=
  if c = '"' then ['\\', '"']
  else if c = '\\' then ['\\', '\\']
  else if c = '\n' then ['\\', 'n']
  else if c = '\r' then ['\\', 'r']
  else if c = '\t' then ['\\', 't']
  else if c.toNat = 8 then ['\\', 'b']
  else if c.toNat = 12 then ['\\', 'f']
  else if c.toNat < 32 then
    ['\\', 'u', '0', '0', hexDigit (c.toNat / 16), hexDigit (c.toNat % 16)]
  else [c]

/-- A string literal. -/
def quoted (s : String) : String :=
  String.ofList ('"' :: (s.toList.flatMap escapeChar ++ ['"']))

/-- The number `digits * 10 ^ exponent`, for a number that is not zero. -/
def decimalText (d : Decimal.Digits) : String :=
  let ds := (toString d.digits).toList
  let len : Int := ds.length
  let point := len + d.exponent
  let zeros (n : Int) : List Char := List.replicate n.toNat '0'
  if 0 ≤ d.exponent && point ≤ 16 then
    String.ofList (ds ++ zeros d.exponent ++ ['.', '0'])
  else if 0 < point && point ≤ 16 then
    String.ofList (ds.take point.toNat ++ '.' :: ds.drop point.toNat)
  else if -5 < point && point ≤ 0 then
    String.ofList ('0' :: '.' :: (zeros (-point) ++ ds))
  else
    let tail := if ds.length = 1 then [] else '.' :: ds.drop 1
    String.ofList (ds.take 1 ++ tail) ++ "e" ++ toString (point - 1)

/-- A double by its bits. -/
def realText (bits : UInt64) : String :=
  let sign := if 0x8000000000000000 ≤ bits.toNat then "-" else ""
  match Decimal.Binary.ofBits? bits with
  | none => sign ++ "0.0"
  | some b => sign ++ decimalText b.shortest

namespace Value

mutual

/-- A value on one line. -/
def compact : Value → String
  | null => "null"
  | bool b => if b then "true" else "false"
  | int n => toString n
  | real bits => realText bits
  | str s => quoted s
  | arr items => "[" ++ Text.joinWith "," (compactItems items) ++ "]"
  | obj members => "\x7b" ++ Text.joinWith "," (compactMembers members) ++ "\x7d"

/-- The items of a list, each on one line. -/
def compactItems : List Value → List String
  | [] => []
  | v :: vs => compact v :: compactItems vs

/-- The members of an object, each on one line. -/
def compactMembers : List (String × Value) → List String
  | [] => []
  | (k, v) :: ms => (quoted k ++ ":" ++ compact v) :: compactMembers ms

end

/-- The beginning of a line at a nesting depth. -/
def lineStart (depth : Nat) : String :=
  "\n" ++ String.ofList (List.replicate (2 * depth) ' ')

mutual

/-- A value over several lines, at a nesting depth. -/
def prettyAt (depth : Nat) : Value → String
  | null => "null"
  | bool b => if b then "true" else "false"
  | int n => toString n
  | real bits => realText bits
  | str s => quoted s
  | arr [] => "[]"
  | arr (v :: vs) =>
    "[" ++ Text.joinWith "," (prettyItems (depth + 1) (v :: vs)) ++ lineStart depth ++ "]"
  | obj [] => "\x7b\x7d"
  | obj (m :: ms) =>
    "\x7b" ++ Text.joinWith "," (prettyMembers (depth + 1) (m :: ms)) ++ lineStart depth ++ "\x7d"

/-- The items of a list, each on lines of its own. -/
def prettyItems (depth : Nat) : List Value → List String
  | [] => []
  | v :: vs => (lineStart depth ++ prettyAt depth v) :: prettyItems depth vs

/-- The members of an object, each on lines of its own. -/
def prettyMembers (depth : Nat) : List (String × Value) → List String
  | [] => []
  | (k, v) :: ms =>
    (lineStart depth ++ quoted k ++ ": " ++ prettyAt depth v) :: prettyMembers depth ms

end

/-- A value over several lines. -/
def pretty (v : Value) : String :=
  v.prettyAt 0

end Value

end NetworkCompiler.Json
