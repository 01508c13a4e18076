/-!
# Hashes and checksums

`sha256` is the hash of the standard FIPS 180-4, in its parts: padding, message schedule,
compression of one block. It maps octets to 32 octets.

The checksum that the `cksum` utility prints is a cyclic redundancy code of the bytes followed by
their number (least significant octet first, no leading zero octets), complemented, and the
number of bytes.
-/

namespace NetworkCompiler.Digest

/-! ## SHA-256 -/

/-- The round constants. -/
def roundConstants : List UInt32 := [
  0x428a2f98, 0x71374491, 0xb5c0fbcf, 0xe9b5dba5, 0x3956c25b, 0x59f111f1, 0x923f82a4, 0xab1c5ed5,
  0xd807aa98, 0x12835b01, 0x243185be, 0x550c7dc3, 0x72be5d74, 0x80deb1fe, 0x9bdc06a7, 0xc19bf174,
  0xe49b69c1, 0xefbe4786, 0x0fc19dc6, 0x240ca1cc, 0x2de92c6f, 0x4a7484aa, 0x5cb0a9dc, 0x76f988da,
  0x983e5152, 0xa831c66d, 0xb00327c8, 0xbf597fc7, 0xc6e00bf3, 0xd5a79147, 0x06ca6351, 0x14292967,
  0x27b70a85, 0x2e1b2138, 0x4d2c6dfc, 0x53380d13, 0x650a7354, 0x766a0abb, 0x81c2c92e, 0x92722c85,
  0xa2bfe8a1, 0xa81a664b, 0xc24b8b70, 0xc76c51a3, 0xd192e819, 0xd6990624, 0xf40e3585, 0x106aa070,
  0x19a4c116, 0x1e376c08, 0x2748774c, 0x34b0bcb5, 0x391c0cb3, 0x4ed8aa4a, 0x5b9cca4f, 0x682e6ff3,
  0x748f82ee, 0x78a5636f, 0x84c87814, 0x8cc70208, 0x90befffa, 0xa4506ceb, 0xbef9a3f7, 0xc67178f2]

/-- The eight words of the hash state. -/
structure HashState where
  a : UInt32
  b : UInt32
  c : UInt32
  d : UInt32
  e : UInt32
  f : UInt32
  g : UInt32
  h : UInt32
  deriving DecidableEq, Repr

/-- The state before the first block. -/
def HashState.initial : HashState :=
  ⟨0x6a09e667, 0xbb67ae85, 0x3c6ef372, 0xa54ff53a, 0x510e527f, 0x9b05688c, 0x1f83d9ab, 0x5be0cd19⟩

/-- Rotates a word to the right. -/
def rotateRight (x : UInt32) (n : UInt32) : UInt32 :=
  (x >>> n) ||| (x <<< (32 - n))

/-- The word of four octets, most significant first. -/
def wordOfOctets (a b c d : UInt8) : UInt32 :=
  (a.toUInt32 <<< 24) ||| (b.toUInt32 <<< 16) ||| (c.toUInt32 <<< 8) ||| d.toUInt32

/-- The octets of a word, most significant first. -/
def octetsOfWord (x : UInt32) : List UInt8 :=
  [(x >>> 24).toUInt8, (x >>> 16).toUInt8, (x >>> 8).toUInt8, x.toUInt8]

/-- The words of a list of octets; octets that do not fill a word are dropped. -/
def wordsOfOctets : List UInt8 → List UInt32
  | a :: b :: c :: d :: rest => wordOfOctets a b c d :: wordsOfOctets rest
  | _ => []

/-- The message with its padding: a one bit, zeros, and its length in bits as eight octets. -/
def padMessage (bytes : List UInt8) : List UInt8 :=
  let zeros := (119 - bytes.length % 64) % 64
  let bits := bytes.length * 8
  bytes ++ 0x80 :: List.replicate zeros 0 ++
    (List.range 8).map fun i => UInt8.ofNat (bits / Nat.pow 256 (7 - i))

/-- Extends the message schedule by `n` words; the last sixteen words are at hand, newest first. -/
def extendSchedule : Nat → List UInt32 → List UInt32
  | 0, ws => ws
  | n + 1, ws =>
    match ws[1]?, ws[6]?, ws[14]?, ws[15]? with
    | some w2, some w7, some w15, some w16 =>
      let s0 := rotateRight w15 7 ^^^ rotateRight w15 18 ^^^ (w15 >>> 3)
      let s1 := rotateRight w2 17 ^^^ rotateRight w2 19 ^^^ (w2 >>> 10)
      extendSchedule n ((w16 + s0 + w7 + s1) :: ws)
    | _, _, _, _ => ws

/-- The 64 words of a block's schedule. -/
def schedule (block : List UInt32) : List UInt32 :=
  (extendSchedule 48 block.reverse).reverse

/-- One round. -/
def HashState.round (s : HashState) (k w : UInt32) : HashState :=
  let sum1 := rotateRight s.e 6 ^^^ rotateRight s.e 11 ^^^ rotateRight s.e 25
  let choice := (s.e &&& s.f) ^^^ ((~~~ s.e) &&& s.g)
  let t1 := s.h + sum1 + choice + k + w
  let sum0 := rotateRight s.a 2 ^^^ rotateRight s.a 13 ^^^ rotateRight s.a 22
  let majority := (s.a &&& s.b) ^^^ (s.a &&& s.c) ^^^ (s.b &&& s.c)
  ⟨t1 + sum0 + majority, s.a, s.b, s.c, s.d + t1, s.e, s.f, s.g⟩

/-- Adds two states word by word. -/
def HashState.add (s t : HashState) : HashState :=
  ⟨s.a + t.a, s.b + t.b, s.c + t.c, s.d + t.d, s.e + t.e, s.f + t.f, s.g + t.g, s.h + t.h⟩

/-- Takes one block of sixteen words into the state. -/
def HashState.compress (s : HashState) (block : List UInt32) : HashState :=
  s.add ((roundConstants.zip (schedule block)).foldl (fun t kw => t.round kw.1 kw.2) s)

/-- Takes the blocks of a list of words into the state. -/
def HashState.absorb (s : HashState) (ws : List UInt32) : HashState :=
  if _h : ws.length < 16 then s
  else (s.compress (ws.take 16)).absorb (ws.drop 16)
termination_by ws.length
decreasing_by simp only [List.length_drop]; omega

/-- The octets of a state. -/
def HashState.octets (s : HashState) : List UInt8 :=
  [s.a, s.b, s.c, s.d, s.e, s.f, s.g, s.h].flatMap octetsOfWord

/-- The hash of a list of octets. -/
def sha256 (bytes : List UInt8) : List UInt8 :=
  (HashState.initial.absorb (wordsOfOctets (padMessage bytes))).octets

/-- Octets as hexadecimal digits. -/
def hex (bytes : List UInt8) : String :=
  let digit (n : Nat) : Char := if n < 10 then Char.ofNat (48 + n) else Char.ofNat (87 + n)
  String.ofList (bytes.flatMap fun b => [digit (b.toNat / 16), digit (b.toNat % 16)])

/-- A short name for a text's contents: the first eight octets of its hash, in hexadecimal. -/
def revision (text : String) : String :=
  hex ((sha256 text.toUTF8.toList).take 8)

/-! ## The checksum of files -/

/-- The generator `x^26 + x^23 + x^22 + x^16 + x^12 + x^11 + x^10 + x^8 + x^7 + x^5 + x^4 + x^2 +
x + 1`, its term `x^32` left out. -/
def crcGenerator : UInt32 := 0x04C11DB7

/-- Multiplies a remainder by `x`. -/
def crcShift (c : UInt32) : UInt32 :=
  if c &&& 0x80000000 = 0 then c <<< 1 else (c <<< 1) ^^^ crcGenerator

/-- Multiplies a remainder by `x ^ n`. -/
def crcShifts : Nat → UInt32 → UInt32
  | 0, c => c
  | n + 1, c => crcShifts n (crcShift c)

/-- Takes one more octet into a remainder. -/
def crcByte (c : UInt32) (b : UInt8) : UInt32 :=
  crcShifts 8 (c ^^^ (b.toUInt32 <<< 24))

/-- Takes octets into a remainder. -/
def crcBytes (c : UInt32) (bytes : List UInt8) : UInt32 :=
  bytes.foldl crcByte c

/-- The octets of a number, least significant first, without leading zeros. -/
def lengthOctets (n : Nat) : List UInt8 :=
  if h : n = 0 then [] else UInt8.ofNat n :: lengthOctets (n / 256)
termination_by n
decreasing_by omega

/-- The checksum proper. -/
def crc (bytes : List UInt8) : UInt32 :=
  ~~~ crcBytes (crcBytes 0 bytes) (lengthOctets bytes.length)

/-- The checksum line of a file: the code and the number of bytes. -/
def cksum (bytes : List UInt8) : String :=
  s!"{(crc bytes).toNat} {bytes.length}"

/-- The checksum line of a text's bytes. -/
def cksumText (s : String) : String :=
  cksum s.toUTF8.toList

end NetworkCompiler.Digest
