import NetworkCompiler.Shell.Arithmetic

/-!
# Conditions of the shell

What `test` decides about its arguments: texts, numbers and files, joined by `!`, `-a`, `-o` and
parentheses.
-/

namespace NetworkCompiler.Shell.Condition

/-- A number that is compared. -/
def number (s : String) : Run Int := do
  let cs := s.toList.dropWhile (·.isWhitespace)
  let cs := (cs.reverse.dropWhile (·.isWhitespace)).reverse
  match Text.Chars.signed? cs with
  | some n => pure n
  | none => Run.fault

/-- Whether a word is a comparison of two others. -/
def isComparison (op : String) : Bool :=
  op ∈ ["=", "!=", "<", ">", "-eq", "-ne", "-gt", "-ge", "-lt", "-le"]

/-- Compares two words. -/
def compare (a op b : String) : Run Bool := do
  match op with
  | "=" => pure (a = b)
  | "!=" => pure (a ≠ b)
  | "<" => pure (a < b)
  | ">" => pure (b < a)
  | "-eq" => return (← number a) = (← number b)
  | "-ne" => return (← number a) ≠ (← number b)
  | "-gt" => return (← number a) > (← number b)
  | "-ge" => return (← number a) ≥ (← number b)
  | "-lt" => return (← number a) < (← number b)
  | "-le" => return (← number a) ≤ (← number b)
  | _ => Run.fault

/-- Whether a word asks about the next. -/
def isQuestion (op : String) : Bool :=
  op ∈ ["-n", "-z", "-e", "-f", "-d", "-r", "-w", "-x", "-s", "-L", "-h", "-t", "-b", "-c", "-p",
    "-S", "-u", "-g", "-k", "-O", "-G"]

/-- Answers a question about a word. -/
def question (op a : String) : Run Bool := do
  let content ← Run.content? a
  let path ← Run.absolute a
  let isDirectory := !a.isEmpty && (path ∈ Run.directories || a = "." || a = "..")
  let isDevice := a = "/dev/null"
  match op with
  | "-n" => pure (!a.isEmpty)
  | "-z" => pure a.isEmpty
  | "-e" | "-r" | "-w" => pure (content.isSome || isDirectory)
  | "-f" => pure (content.isSome && !isDevice)
  | "-c" => pure isDevice
  | "-d" | "-x" => pure isDirectory
  | "-s" => pure (isDirectory || content.any fun s => !s.isEmpty)
  | _ => pure false

mutual

/-- Alternatives. -/
def either : Nat → List String → Run (Bool × List String)
  | 0, _ => Run.fault
  | fuel + 1, ws => do
    let (a, rest) ← both fuel ws
    match rest with
    | "-o" :: rest =>
      let (b, rest) ← either fuel rest
      pure (a || b, rest)
    | rest => pure (a, rest)

/-- Conditions that all have to hold. -/
def both : Nat → List String → Run (Bool × List String)
  | 0, _ => Run.fault
  | fuel + 1, ws => do
    let (a, rest) ← single fuel ws
    match rest with
    | "-a" :: rest =>
      let (b, rest) ← both fuel rest
      pure (a && b, rest)
    | rest => pure (a, rest)

/-- One condition. -/
def single : Nat → List String → Run (Bool × List String)
  | 0, _ => Run.fault
  | fuel + 1, ws => do
    match ws with
    | [] => Run.fault
    | [a] => pure (!a.isEmpty, [])
    | a :: op :: rest =>
      match isComparison op, rest with
      | true, b :: rest => return (← compare a op b, rest)
      | _, _ =>
        if a = "!" then
          let (b, rest) ← single fuel (op :: rest)
          pure (!b, rest)
        else if a = "(" then
          let (b, rest) ← either fuel (op :: rest)
          match rest with
          | ")" :: rest => pure (b, rest)
          | _ => Run.fault
        else if isQuestion a then return (← question a op, rest)
        else pure (!a.isEmpty, op :: rest)

end

/-- Whether a condition holds. -/
def holds (ws : List String) : Run Bool := do
  match ws with
  | [] => pure false
  | ["!", a] => pure a.isEmpty
  | ws =>
    let (b, rest) ← either (4 * ws.length + 4) ws
    if rest.isEmpty then pure b else Run.fault

end NetworkCompiler.Shell.Condition
