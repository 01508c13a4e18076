import NetworkCompiler.Text.Numeral
import NetworkCompiler.Text.Split

/-!
# Summaries of runs

The last line a script prints tells how many units passed and failed, and which failed.
`RunSummary.ofOutput?` reads it back from everything the script printed.
-/

namespace NetworkCompiler

/-- The totals of a run. -/
structure RunSummary where
  pass : Nat
  fail : Nat
  failed : List String
  deriving DecidableEq, Repr

namespace RunSummary

/-- The largest number a total may be. -/
def maxTotal : Nat := 0xffffffff

/-- What stands before and after the first `sep`. -/
def cutAtText? (sep : List Char) : List Char → Option (List Char × List Char)
  | [] => if sep.isEmpty then some ([], []) else none
  | c :: cs =>
    match Text.Chars.after? sep (c :: cs) with
    | some rest => some ([], rest)
    | none => (cutAtText? sep cs).map fun (l, r) => (c :: l, r)

/-- The number behind `start`. -/
def total? (start s : String) : Option Nat :=
  (Text.after? start s).bind (Text.unsigned? maxTotal)

/-- Reads the totals on a line. -/
def ofLine? (line : String) : Option RunSummary := do
  let (counts, failed) ← cutAtText? " failed:".toList line.toList
  let (pass, fail) ← Text.cutAt? ' ' (String.ofList counts)
  let pass ← total? "pass=" pass
  let fail ← total? "fail=" fail
  pure ⟨pass, fail, Text.words (String.ofList failed)⟩

/-- Reads the totals on the last line that begins like them. -/
def ofOutput? (output : String) : Option RunSummary :=
  ((Text.lines output).reverse.find? fun l => (Text.after? "pass=" l).isSome).bind ofLine?

end RunSummary

end NetworkCompiler
