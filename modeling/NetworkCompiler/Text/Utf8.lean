/-!
# UTF-8

Bytes as text. `decode?` accepts well-formed UTF-8 only. `decodeLossy` reads anything: every
maximal ill-formed piece (a beginning of a sequence that is not continued, or a byte that begins
none) becomes one replacement character.
-/

namespace NetworkCompiler.Text

/-- The text of well-formed bytes. -/
def decode? (bytes : ByteArray) : Option String :=
  String.fromUTF8? bytes

/-- The character that stands for an ill-formed piece. -/
def replacement : Char := Char.ofNat 0xFFFD

/-- Whether a byte continues a sequence. -/
def isContinuation (b : UInt8) : Bool :=
  0x80 ≤ b && b ≤ 0xBF

/-- Whether `b` may follow the first byte `a` of a sequence of three. -/
def isSecondOfThree (a b : UInt8) : Bool :=
  if a = 0xE0 then 0xA0 ≤ b && b ≤ 0xBF
  else if a = 0xED then 0x80 ≤ b && b ≤ 0x9F
  else isContinuation b

/-- Whether `b` may follow the first byte `a` of a sequence of four. -/
def isSecondOfFour (a b : UInt8) : Bool :=
  if a = 0xF0 then 0x90 ≤ b && b ≤ 0xBF
  else if a = 0xF4 then 0x80 ≤ b && b ≤ 0x8F
  else isContinuation b

/-- The low six bits of a continuation byte. -/
def payload (b : UInt8) : Nat := b.toNat % 64

/-- The first character of a text, and how many bytes it takes. -/
def nextLossy (a : UInt8) (rest : List UInt8) : Char × Nat :=
  if a < 0x80 then (Char.ofNat a.toNat, 1)
  else if 0xC2 ≤ a && a ≤ 0xDF then
    match rest with
    | b :: _ =>
      if isContinuation b then (Char.ofNat (a.toNat % 32 * 64 + payload b), 2)
      else (replacement, 1)
    | [] => (replacement, 1)
  else if 0xE0 ≤ a && a ≤ 0xEF then
    match rest with
    | b :: c :: _ =>
      if !isSecondOfThree a b then (replacement, 1)
      else if !isContinuation c then (replacement, 2)
      else (Char.ofNat ((a.toNat % 16 * 64 + payload b) * 64 + payload c), 3)
    | [b] => (replacement, if isSecondOfThree a b then 2 else 1)
    | [] => (replacement, 1)
  else if 0xF0 ≤ a && a ≤ 0xF4 then
    match rest with
    | b :: c :: d :: _ =>
      if !isSecondOfFour a b then (replacement, 1)
      else if !isContinuation c then (replacement, 2)
      else if !isContinuation d then (replacement, 3)
      else
        (Char.ofNat (((a.toNat % 8 * 64 + payload b) * 64 + payload c) * 64 + payload d), 4)
    | [b, c] =>
      (replacement, if !isSecondOfFour a b then 1 else if isContinuation c then 3 else 2)
    | [b] => (replacement, if isSecondOfFour a b then 2 else 1)
    | [] => (replacement, 1)
  else (replacement, 1)

/-- Reads bytes while skipping the first `skip` of them, which belong to a character already
read. -/
def decodeLossyAux : Nat → List UInt8 → List Char
  | _, [] => []
  | 0, a :: rest =>
    let (c, width) := nextLossy a rest
    c :: decodeLossyAux (width - 1) rest
  | skip + 1, _ :: rest => decodeLossyAux skip rest

/-- The text of any bytes. -/
def decodeLossy (bytes : ByteArray) : String :=
  match decode? bytes with
  | some s => s
  | none => String.ofList (decodeLossyAux 0 bytes.toList)

end NetworkCompiler.Text
