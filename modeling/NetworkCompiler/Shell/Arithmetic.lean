import NetworkCompiler.Shell.Process

/-!
# Sums of the shell

The whole-number arithmetic between `$((` and `))`: a tree (`Sum`), its reader (`readSum?`) and
its value (`Sum.value`), in 64 bits that wrap around.
-/

namespace NetworkCompiler.Shell

/-- An operation on two numbers. -/
inductive SumOperation where
  | add | sub | mul | div | rem | shiftLeft | shiftRight | bitAnd | bitOr | bitXor
  | lt | le | gt | ge | eq | ne
  deriving DecidableEq, Repr

/-- A sum. -/
inductive Sum where
  | number (n : Int)
  | variable (name : String)
  | minus (e : Sum)
  | complement (e : Sum)
  | not (e : Sum)
  | binary (op : SumOperation) (l r : Sum)
  | and (l r : Sum)
  | or (l r : Sum)
  | choose (test yes no : Sum)
  /-- Gives a variable a new value, which may come from its old one. -/
  | assign (name : String) (op : Option SumOperation) (e : Sum)
  deriving Inhabited, Repr

/-! ## Numbers -/

/-- A number as 64 bits hold it. -/
def wrap (n : Int) : Int := n.bmod 0x10000000000000000

/-- The number nearest to `n` that 64 bits hold. -/
def clamp (n : Int) : Int :=
  if Text.fits64 n then n else if n < 0 then -0x8000000000000000 else 0x7fffffffffffffff

/-- The value of a digit, up to base sixteen. -/
def hexDigit? (c : Char) : Option Nat :=
  if '0' ≤ c && c ≤ '9' then some (c.toNat - 48)
  else if 'a' ≤ c && c ≤ 'f' then some (c.toNat - 87)
  else if 'A' ≤ c && c ≤ 'F' then some (c.toNat - 55)
  else none

/-- The number whose digits follow those of `n`. -/
def digitsFrom? (base : Nat) (n : Nat) : List Char → Option Nat
  | [] => some n
  | c :: cs => (hexDigit? c).bind fun d =>
    if d < base then digitsFrom? base (n * base + d) cs else none

/-- A number without sign: hexadecimal behind `0x`, octal behind `0`, else decimal. -/
def magnitude? : List Char → Option Nat
  | [] => none
  | '0' :: x :: d :: cs =>
    if x = 'x' || x = 'X' then digitsFrom? 16 0 (d :: cs) else digitsFrom? 8 0 (x :: d :: cs)
  | '0' :: cs => digitsFrom? 8 0 cs
  | cs => digitsFrom? 10 0 cs

/-- A number with an optional sign, blanks around it. -/
def integer? (s : String) : Option Int :=
  let trimmed := s.toList.dropWhile (·.isWhitespace)
  let trimmed := (trimmed.reverse.dropWhile (·.isWhitespace)).reverse
  match trimmed with
  | '-' :: cs => (magnitude? cs).map fun n => clamp (-(n : Int))
  | '+' :: cs => (magnitude? cs).map fun n => clamp n
  | cs => (magnitude? cs).map fun n => clamp n

/-! ## Reading -/

/-- A token of a sum. -/
inductive SumToken where
  | number (n : Int)
  | name (s : String)
  | sign (s : String)
  deriving DecidableEq, Repr

/-- The signs, longer ones first. -/
def sumSigns : List String :=
  ["<<=", ">>=", "&&", "||", "==", "!=", "<=", ">=", "<<", ">>", "+=", "-=", "*=", "/=", "%=",
    "&=", "|=", "^=", "+", "-", "*", "/", "%", "<", ">", "&", "|", "^", "~", "!", "=", "?", ":",
    "(", ")"]

/-- The tokens of a sum. -/
def sumTokens? : Nat → List Char → Option (List SumToken)
  | 0, _ => none
  | _ + 1, [] => some []
  | fuel + 1, c :: cs =>
    if c.isWhitespace then sumTokens? fuel cs
    else if c.isDigit then do
      let n ← magnitude? (c :: cs.takeWhile Char.isAlphanum)
      let ts ← sumTokens? fuel (cs.dropWhile Char.isAlphanum)
      pure (.number (clamp n) :: ts)
    else if isNameStart c then do
      let ts ← sumTokens? fuel (cs.dropWhile isNameChar)
      pure (.name (String.ofList (c :: cs.takeWhile isNameChar)) :: ts)
    else do
      let (s, rest) ← firstOf? (c :: cs) sumSigns
      let ts ← sumTokens? fuel rest
      pure (.sign s :: ts)

/-- The operation of a sign and how tightly it binds. -/
def sumOperation? (s : String) : Option (Nat × (Sum → Sum → Sum)) :=
  match s with
  | "||" => some (1, .or)
  | "&&" => some (2, .and)
  | "|" => some (3, .binary .bitOr)
  | "^" => some (4, .binary .bitXor)
  | "&" => some (5, .binary .bitAnd)
  | "==" => some (6, .binary .eq)
  | "!=" => some (6, .binary .ne)
  | "<" => some (7, .binary .lt)
  | "<=" => some (7, .binary .le)
  | ">" => some (7, .binary .gt)
  | ">=" => some (7, .binary .ge)
  | "<<" => some (8, .binary .shiftLeft)
  | ">>" => some (8, .binary .shiftRight)
  | "+" => some (9, .binary .add)
  | "-" => some (9, .binary .sub)
  | "*" => some (10, .binary .mul)
  | "/" => some (10, .binary .div)
  | "%" => some (10, .binary .rem)
  | _ => none

/-- The operation of a sign that assigns; none for plain assignment. -/
def assignment? (s : String) : Option (Option SumOperation) :=
  match s with
  | "=" => some none
  | "+=" => some (some .add)
  | "-=" => some (some .sub)
  | "*=" => some (some .mul)
  | "/=" => some (some .div)
  | "%=" => some (some .rem)
  | "<<=" => some (some .shiftLeft)
  | ">>=" => some (some .shiftRight)
  | "&=" => some (some .bitAnd)
  | "|=" => some (some .bitOr)
  | "^=" => some (some .bitXor)
  | _ => none

mutual

/-- An assignment or a choice. -/
def sum? : Nat → List SumToken → Option (Sum × List SumToken)
  | 0, _ => none
  | fuel + 1, ts =>
    let choice : Option (Sum × List SumToken) := do
      let (test, rest) ← operand? fuel ts
      let (test, rest) ← operations? fuel 1 test rest
      match rest with
      | .sign "?" :: rest =>
        let (yes, rest) ← sum? fuel rest
        match rest with
        | .sign ":" :: rest =>
          let (no, rest) ← sum? fuel rest
          pure (.choose test yes no, rest)
        | _ => none
      | rest => pure (test, rest)
    match ts with
    | .name v :: .sign s :: rest =>
      match assignment? s with
      | some op => (sum? fuel rest).map fun (e, rest) => (.assign v op e, rest)
      | none => choice
    | _ => choice

/-- The operations that bind at least as tightly as `level`, behind their first operand. -/
def operations? : Nat → Nat → Sum → List SumToken → Option (Sum × List SumToken)
  | 0, _, _, _ => none
  | fuel + 1, level, l, ts =>
    match ts with
    | .sign s :: rest =>
      match sumOperation? s with
      | some (binding, op) =>
        if binding < level then some (l, ts)
        else do
          let (r, rest) ← operand? fuel rest
          let (r, rest) ← operations? fuel (binding + 1) r rest
          operations? fuel level (op l r) rest
      | none => some (l, ts)
    | _ => some (l, ts)

/-- A number, a variable, or a sum in parentheses, with signs in front. -/
def operand? : Nat → List SumToken → Option (Sum × List SumToken)
  | 0, _ => none
  | fuel + 1, ts =>
    match ts with
    | .number n :: rest => some (.number n, rest)
    | .name v :: rest => some (.variable v, rest)
    | .sign "+" :: rest => operand? fuel rest
    | .sign "-" :: rest => (operand? fuel rest).map fun (e, rest) => (.minus e, rest)
    | .sign "~" :: rest => (operand? fuel rest).map fun (e, rest) => (.complement e, rest)
    | .sign "!" :: rest => (operand? fuel rest).map fun (e, rest) => (.not e, rest)
    | .sign "(" :: rest =>
      match sum? fuel rest with
      | some (e, .sign ")" :: rest) => some (e, rest)
      | _ => none
    | _ => none

end

/-- Reads a sum. -/
def readSum? (s : String) : Option Sum :=
  let cs := s.toList
  match sumTokens? (cs.length + 1) cs with
  | some ts =>
    match sum? (4 * ts.length + 4) ts with
    | some (e, []) => some e
    | _ => none
  | none => none

/-! ## Values -/

/-- A number as 64 bits without sign. -/
def bits (n : Int) : Nat := (n.emod 0x10000000000000000).toNat

/-- One for what holds, zero for what does not. -/
def ofBool (b : Bool) : Int := if b then 1 else 0

/-- The value of an operation; none by zero. -/
def SumOperation.apply? (op : SumOperation) (a b : Int) : Option Int :=
  match op with
  | .add => some (wrap (a + b))
  | .sub => some (wrap (a - b))
  | .mul => some (wrap (a * b))
  | .div => if b = 0 then none else some (wrap (a.tdiv b))
  | .rem => if b = 0 then none else some (a.tmod b)
  | .shiftLeft => some (wrap (a * (Nat.pow 2 (bits b % 64) : Nat)))
  | .shiftRight => some (a.fdiv (Nat.pow 2 (bits b % 64) : Nat))
  | .bitAnd => some (wrap (bits a &&& bits b : Nat))
  | .bitOr => some (wrap (bits a ||| bits b : Nat))
  | .bitXor => some (wrap (bits a ^^^ bits b : Nat))
  | .lt => some (ofBool (a < b))
  | .le => some (ofBool (a ≤ b))
  | .gt => some (ofBool (a > b))
  | .ge => some (ofBool (a ≥ b))
  | .eq => some (ofBool (a = b))
  | .ne => some (ofBool (a ≠ b))

/-- The number that a variable holds; none counts as zero. -/
def variableNumber (name : String) : Run Int := do
  match ← Run.valueOf? name with
  | none =>
    if (← get).needsValues then Run.fatal
    pure 0
  | some "" => pure 0
  | some s =>
    match integer? s with
    | some n => pure n
    | none => Run.fatal

/-- The value of an operation; by zero it is a fault. -/
def applyOperation (op : SumOperation) (a b : Int) : Run Int :=
  match op.apply? a b with
  | some n => pure n
  | none => Run.fatal

/-- The value of a sum. -/
def Sum.value : Sum → Run Int
  | .number n => pure n
  | .variable name => variableNumber name
  | .minus e => return wrap (-(← e.value))
  | .complement e => return -(← e.value) - 1
  | .not e => return ofBool ((← e.value) = 0)
  | .binary op l r => do
    let a ← l.value
    let b ← r.value
    applyOperation op a b
  | .and l r => do
    if (← l.value) = 0 then return 0
    return ofBool ((← r.value) ≠ 0)
  | .or l r => do
    if (← l.value) ≠ 0 then return 1
    return ofBool ((← r.value) ≠ 0)
  | .choose test yes no => do
    if (← test.value) ≠ 0 then yes.value else no.value
  | .assign name op e => do
    let n ← match op with
      | none => e.value
      | some op => do
        let a ← variableNumber name
        let b ← e.value
        applyOperation op a b
    Run.assign name (toString n)
    pure n

end NetworkCompiler.Shell
