import NetworkCompiler.Shell.Arithmetic

/-!
# Formatted output of the shell

Escapes in texts that are printed (`escaped`), and what a format makes of its arguments
(`printFormat`). A format is used again as long as arguments are left.
-/

namespace NetworkCompiler.Shell

/-! ## Escapes -/

/-- The value of up to `n` octal digits, and what follows them. -/
def octal : Nat → Nat → List Char → Nat × List Char
  | n + 1, value, c :: cs =>
    if '0' ≤ c && c ≤ '7' then octal n (value * 8 + (c.toNat - 48)) cs else (value, c :: cs)
  | _, value, cs => (value, cs)

/-- What the text behind a backslash stands for, and what follows it. -/
def escape (cs : List Char) : List Char × List Char :=
  match cs with
  | [] => (['\\'], [])
  | 'a' :: cs => (['\x07'], cs)
  | 'b' :: cs => (['\x08'], cs)
  | 'f' :: cs => (['\x0c'], cs)
  | 'n' :: cs => (['\n'], cs)
  | 'r' :: cs => (['\r'], cs)
  | 't' :: cs => (['\t'], cs)
  | 'v' :: cs => (['\x0b'], cs)
  | '\\' :: cs => (['\\'], cs)
  | c :: cs =>
    if '0' ≤ c && c ≤ '7' then
      let (value, rest) := octal 3 0 (c :: cs)
      ([Char.ofNat (value % 256)], rest)
    else (['\\', c], cs)

/-- A text with its escapes replaced, and whether it asked to stop there. An octal number may
have a zero more in front. -/
def escaped : Nat → List Char → List Char × Bool
  | 0, cs => (cs, false)
  | _ + 1, [] => ([], false)
  | fuel + 1, c :: cs =>
    if c = '\\' then
      match cs with
      | 'c' :: _ => ([], true)
      | '0' :: d :: rest =>
        let start := if '0' ≤ d && d ≤ '7' then d :: rest else '0' :: d :: rest
        let (front, rest) := escape start
        let (more, stop) := escaped fuel rest
        (front ++ more, stop)
      | cs =>
        let (front, rest) := escape cs
        let (more, stop) := escaped fuel rest
        (front ++ more, stop)
    else
      let (more, stop) := escaped fuel cs
      (c :: more, stop)

/-- A text with its escapes replaced, and whether it asked to stop there. -/
def escapedText (s : String) : String × Bool :=
  let (cs, stop) := escaped (s.length + 1) s.toList
  (String.ofList cs, stop)

/-! ## Formats -/

/-- How a value is set. -/
structure Setting where
  /-- At the left end of its width. -/
  left : Bool := false
  zero : Bool := false
  plus : Bool := false
  blank : Bool := false
  /-- With a mark of its base. -/
  marked : Bool := false
  width : Nat := 0
  precision : Option Nat := none
  deriving Inhabited, Repr

/-- A row of one character. -/
def row (c : Char) (n : Nat) : String := String.ofList (List.replicate n c)

/-- A text in its width. -/
def Setting.pad (f : Setting) (s : String) : String :=
  let gap := row ' ' (f.width - s.length)
  if f.left then s ++ gap else gap ++ s

/-- Digits with what stands in front of them, in their width. -/
def Setting.number (f : Setting) (front digits : String) : String :=
  let digits := match f.precision with
    | some n => row '0' (n - digits.length) ++ digits
    | none => digits
  if f.zero && !f.left && f.precision.isNone then
    front ++ row '0' (f.width - front.length - digits.length) ++ digits
  else f.pad (front ++ digits)

/-- The digits of a number in a base. -/
def digits (base : Nat) (capital : Bool) (n : Nat) : String :=
  let s := String.ofList (Nat.toDigits base n)
  if capital then String.ofList (s.toList.map Char.toUpper) else s

/-- A number as an argument is read, and whether all of it could be. -/
def argumentNumber (s : String) : Int × Bool :=
  match s.toList with
  | '\'' :: c :: _ | '"' :: c :: _ => (c.toNat, true)
  | cs =>
    if s.isEmpty then (0, true)
    else
      match integer? s with
      | some n => (n, true)
      | none =>
        let (negative, cs) := match cs with
          | '-' :: cs => (true, cs)
          | '+' :: cs => (false, cs)
          | cs => (false, cs)
        let n := ((magnitude? (cs.takeWhile Char.isDigit)).getD 0 : Int)
        (if negative then -n else n, false)

/-- What printing needs and makes. -/
structure Printing where
  arguments : List String
  /-- What is printed so far. -/
  text : String := ""
  /-- Whether every argument could be read. -/
  good : Bool := true
  /-- Whether an argument was taken. -/
  took : Bool := false
  deriving Inhabited

/-- Monad of printing: `none` is a fault of the format, a `Bool` says that printing stops. -/
abbrev Printer := StateT Printing Option

namespace Printer

/-- Prints a text. -/
def put (s : String) : Printer Unit := modify fun p => { p with text := p.text ++ s }

/-- Takes an argument; one that is absent is empty. -/
def argument : Printer String :=
  modifyGet fun p =>
    match p.arguments with
    | [] => ("", p)
    | a :: as => (a, { p with arguments := as, took := true })

/-- Takes an argument as a number. -/
def number : Printer Int := do
  let (n, good) := argumentNumber (← argument)
  modify fun p => { p with good := p.good && good }
  pure n

/-- Reads the flags of a setting. -/
def flags : Nat → Setting → List Char → Setting × List Char
  | 0, f, cs => (f, cs)
  | fuel + 1, f, cs =>
    match cs with
    | '-' :: cs => flags fuel { f with left := true } cs
    | '0' :: cs => flags fuel { f with zero := true } cs
    | '+' :: cs => flags fuel { f with plus := true } cs
    | ' ' :: cs => flags fuel { f with blank := true } cs
    | '#' :: cs => flags fuel { f with marked := true } cs
    | cs => (f, cs)

/-- Reads a number of a setting, or takes it from the arguments. -/
def settingNumber (cs : List Char) : Printer (Int × List Char) := do
  match cs with
  | '*' :: cs => return (← number, cs)
  | cs =>
    let ds := cs.takeWhile Char.isDigit
    pure ((Text.Chars.natural? ds).getD 0, cs.drop ds.length)

/-- Prints an argument as a conversion says, and says whether printing stops. -/
def convert (f : Setting) (c : Char) : Printer Bool := do
  match c with
  | 's' =>
    let s ← argument
    put (f.pad (match f.precision with
      | some n => String.ofList (s.toList.take n)
      | none => s))
    pure false
  | 'b' =>
    let (s, stop) := escapedText (← argument)
    put (f.pad (match f.precision with
      | some n => String.ofList (s.toList.take n)
      | none => s))
    pure stop
  | 'c' =>
    let s ← argument
    put (f.pad ((s.toList.headD '\x00').toString))
    pure false
  | 'd' | 'i' =>
    let n ← number
    let front := if n < 0 then "-" else if f.plus then "+" else if f.blank then " " else ""
    put (f.number front (toString n.natAbs))
    pure false
  | 'u' =>
    put (f.number "" (toString (bits (← number))))
    pure false
  | 'o' =>
    put (f.number (if f.marked then "0" else "") (digits 8 false (bits (← number))))
    pure false
  | 'x' =>
    let n := bits (← number)
    put (f.number (if f.marked && n ≠ 0 then "0x" else "") (digits 16 false n))
    pure false
  | 'X' =>
    let n := bits (← number)
    put (f.number (if f.marked && n ≠ 0 then "0X" else "") (digits 16 true n))
    pure false
  | _ => failure

/-- Prints a format once, and says whether printing stops. -/
def once : Nat → List Char → Printer Bool
  | 0, _ => pure true
  | _ + 1, [] => pure false
  | fuel + 1, c :: cs => do
    if c = '\\' then
      let (front, rest) := escape cs
      put (String.ofList front)
      once fuel rest
    else if c ≠ '%' then
      put c.toString
      once fuel cs
    else
      match cs with
      | '%' :: rest =>
        put "%"
        once fuel rest
      | cs =>
        let (f, cs) := flags cs.length {} cs
        let (width, cs) ← settingNumber cs
        let f := { f with left := f.left || width < 0, width := width.natAbs }
        let (f, cs) ← match cs with
          | '.' :: cs => do
            let (precision, cs) ← settingNumber cs
            let given := if precision < 0 then none else some precision.toNat
            pure ({ f with precision := given }, cs)
          | cs => pure (f, cs)
        match cs with
        | [] => failure
        | c :: rest =>
          if ← convert f c then pure true else once fuel rest

/-- Prints a format as long as arguments are left. -/
def repeated (format : List Char) : Nat → Printer Unit
  | 0 => pure ()
  | fuel + 1 => do
    modify fun p => { p with took := false }
    if ← once (format.length + 1) format then return
    let p ← get
    if p.took && !p.arguments.isEmpty then repeated format fuel

end Printer

/-- What a format makes of its arguments, and whether all of them could be read. What is printed
in front of a fault of the format still counts as nothing. -/
def printFormat (format : String) (arguments : List String) : Option (String × Bool) :=
  match Printer.repeated format.toList (arguments.length + 1) { arguments := arguments } with
  | some (_, p) => some (p.text, p.good)
  | none => none

end NetworkCompiler.Shell
