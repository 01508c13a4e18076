import NetworkCompiler.Json.Reader
import NetworkCompiler.Json.Value

/-!
# Reading JSON of a known shape

A document whose shape is known is read straight into the values it stands for, front to back, so
the first fault in the text is the one that is reported. A `Reading` takes a value off the front
of a text. A value of another type is a fault of the shape only if it is well formed itself.

A value that nobody asked for is passed over without being built. It has to be of the right form,
but numbers may be of any size, escapes may name half a surrogate pair, and arrays and objects
may stand as deep as the text is long.
-/

namespace NetworkCompiler.Json

/-! ## Skipping values -/

/-- Passes over an escape behind its backslash. -/
def skipEscape? : List Char → Option (List Char)
  | 'u' :: cs => (hexWord? cs).map (·.2)
  | c :: cs => if c ∈ ['"', '\\', '/', 'b', 'f', 'n', 'r', 't'] then some cs else none
  | [] => none

/-- Passes over a string behind its opening quote; `fuel` bounds its characters. -/
def skipStringBody? : Nat → List Char → Option (List Char)
  | 0, _ => none
  | _ + 1, [] => none
  | fuel + 1, c :: cs =>
    if c = '"' then some cs
    else if c = '\\' then (skipEscape? cs).bind (skipStringBody? fuel)
    else if c.toNat < 32 then none
    else skipStringBody? fuel cs

/-- Passes over a string behind its opening quote. -/
def skipString? (cs : List Char) : Option (List Char) :=
  skipStringBody? (cs.length + 1) cs

/-- Passes over one or more digits. -/
def skipDigits? (cs : List Char) : Option (List Char) :=
  match digitRun cs with
  | ([], _) => none
  | (_, rest) => some rest

/-- Passes over the exponent of a number, if there is one. -/
def skipExponent? : List Char → Option (List Char)
  | [] => some []
  | c :: cs =>
    if c = 'e' || c = 'E' then
      match cs with
      | '+' :: cs => skipDigits? cs
      | '-' :: cs => skipDigits? cs
      | cs => skipDigits? cs
    else some (c :: cs)

/-- Passes over a number behind its sign. -/
def skipNumber? (cs : List Char) : Option (List Char) :=
  match digitRun cs with
  | ([], _) => none
  | (0 :: _ :: _, _) => none
  | (_, '.' :: rest) => (skipDigits? rest).bind skipExponent?
  | (_, rest) => skipExponent? rest

/-- Passes over a value that has no parts. -/
def skipScalar? : List Char → Option (List Char)
  | 'n' :: cs => Text.Chars.after? ['u', 'l', 'l'] cs
  | 't' :: cs => Text.Chars.after? ['r', 'u', 'e'] cs
  | 'f' :: cs => Text.Chars.after? ['a', 'l', 's', 'e'] cs
  | '"' :: cs => skipString? cs
  | '-' :: cs => skipNumber? cs
  | cs => skipNumber? cs

/-- Passes over the items of a list from the first on, each with `item`. -/
def skipItems? (item : List Char → Option (List Char)) : Nat → List Char → Option (List Char)
  | 0, _ => none
  | fuel + 1, cs => do
    let rest ← item cs
    match skipSpace rest with
    | ',' :: rest => skipItems? item fuel rest
    | ']' :: rest => some rest
    | _ => none

/-- Passes over the members of an object from the first on, each value with `item`. -/
def skipMembers? (item : List Char → Option (List Char)) : Nat → List Char → Option (List Char)
  | 0, _ => none
  | fuel + 1, cs =>
    match skipSpace cs with
    | '"' :: cs => do
      let rest ← skipString? cs
      match skipSpace rest with
      | ':' :: rest =>
        let rest ← item rest
        match skipSpace rest with
        | ',' :: rest => skipMembers? item fuel rest
        | '}' :: rest => some rest
        | _ => none
      | _ => none
    | _ => none

/-- Passes over a value in which arrays and objects stand at most `depth` deep. -/
def skipWithin? : Nat → List Char → Option (List Char)
  | depth, cs =>
    match skipSpace cs with
    | '[' :: cs =>
      match depth with
      | 0 => none
      | depth + 1 =>
        match skipSpace cs with
        | ']' :: rest => some rest
        | _ => skipItems? (skipWithin? depth) (cs.length + 1) cs
    | '{' :: cs =>
      match depth with
      | 0 => none
      | depth + 1 =>
        match skipSpace cs with
        | '}' :: rest => some rest
        | _ => skipMembers? (skipWithin? depth) (cs.length + 1) cs
    | cs => skipScalar? cs

/-- Passes over a value. -/
def skip? (cs : List Char) : Option (List Char) :=
  skipWithin? cs.length cs

/-! ## Reading values -/

/-- Takes a value off the front of a text. -/
abbrev Reading (α : Type) := List Char → Except JsonFault (α × List Char)

/-- A value that was taken off a text, or a fault of the text. -/
def orMalformed {α : Type} : Option α → Except JsonFault α
  | some a => .ok a
  | none => .error .malformed

/-- The fault of a value of another type than the one expected. -/
def unexpected (cs : List Char) : JsonFault :=
  match cs with
  | '[' :: _ => .mistyped
  | '{' :: _ => .mistyped
  | _ => if (scalar? cs).isSome then .mistyped else .malformed

/-- Reads a text. -/
def readText : Reading String := fun cs =>
  match skipSpace cs with
  | '"' :: cs => orMalformed (string? cs)
  | cs => .error (unexpected cs)

/-- Reads a text or `null`. -/
def readOptionalText : Reading (Option String) := fun cs =>
  match skipSpace cs with
  | 'n' :: cs => orMalformed ((Text.Chars.after? ['u', 'l', 'l'] cs).map (none, ·))
  | cs => (readText cs).map fun (s, rest) => (some s, rest)

/-- Passes over any value. -/
def readIgnored : Reading Unit := fun cs =>
  orMalformed ((skip? cs).map ((), ·))

/-- Reads a value behind a colon. -/
def afterColon {α : Type} (read : Reading α) : Reading α := fun cs =>
  match skipSpace cs with
  | ':' :: cs => read cs
  | _ => .error .malformed

/-- Reads members of an object from the first on. `step` is given what was read so far and the
key of a member, and reads on behind the key. -/
def readMembersFrom {σ : Type} (step : σ → String → Reading σ) : Nat → σ → Reading σ
  | 0, _, _ => .error .malformed
  | fuel + 1, s, cs =>
    match skipSpace cs with
    | '"' :: cs => do
      let (key, rest) ← orMalformed (string? cs)
      let (s, rest) ← step s key rest
      match skipSpace rest with
      | ',' :: rest => readMembersFrom step fuel s rest
      | '}' :: rest => .ok (s, rest)
      | _ => .error .malformed
    | _ => .error .malformed

/-- Reads an object behind its opening brace. -/
def readMembers {σ : Type} (step : σ → String → Reading σ) (start : σ) : Reading σ := fun cs =>
  match skipSpace cs with
  | '}' :: rest => .ok (start, rest)
  | cs => readMembersFrom step (cs.length + 1) start cs

/-- Takes one more member into a dictionary of texts. -/
def readTextMember (d : Dictionary String String) (key : String) :
    Reading (Dictionary String String) := fun cs =>
  (afterColon readText cs).map fun (s, rest) => (Dictionary.insert key s d, rest)

/-- Reads an object of texts; of two members of one key the later counts. -/
def readTexts : Reading (Dictionary String String) := fun cs =>
  match skipSpace cs with
  | '{' :: cs => readMembers readTextMember [] cs
  | cs => .error (unexpected cs)

/-- Reads a whole document. -/
def readDocument {α : Type} (read : Reading α) (text : String) : Except JsonFault α := do
  let (a, rest) ← read text.toList
  if (skipSpace rest).isEmpty then .ok a else .error .malformed

end NetworkCompiler.Json
