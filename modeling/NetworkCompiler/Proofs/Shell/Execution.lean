import NetworkCompiler.ConfigUnit.Execution
import NetworkCompiler.Proofs.Text.Reading
import NetworkCompiler.Shell.Command

/-!
# Running commands of scripts

What a shell does with the commands of a script on a machine (`execAll`) : the audits and the
configurations are those of a `Host`, everything else works on the variables of the script and on
what it has printed. A variable holds a text; a sum takes it as a number (`numeral`), and a test
compares it.
-/

namespace NetworkCompiler.Shell

open ConfigUnit (Host)

/-- What a script works on. -/
structure Memory (σ : Type) where
  vars : Variable → String
  /-- The output of the last audit. -/
  output : String
  /-- The name of the machine, once it was looked up. -/
  hostname : String
  /-- The lines that were printed. -/
  printed : List String
  /-- The state of the machine. -/
  host : σ

namespace Memory

variable {σ : Type}

/-- Gives a variable a text. -/
def set (m : Memory σ) (v : Variable) (text : String) : Memory σ :=
  { m with vars := fun w => if w = v then text else m.vars w }

/-- Prints a line. -/
def print (m : Memory σ) (line : String) : Memory σ :=
  { m with printed := m.printed ++ [line] }

section Lemmas

variable (m : Memory σ) (v w : Variable) (text : String)

@[simp] theorem vars_set : (m.set v text).vars w = if w = v then text else m.vars w := rfl

theorem vars_set_self : (m.set v text).vars v = text :=
  if_pos rfl

theorem vars_set_of_ne {v w : Variable} (h : w ≠ v) : (m.set v text).vars w = m.vars w :=
  if_neg h

@[simp] theorem vars_print : (m.print text).vars = m.vars := rfl

end Lemmas

end Memory

/-- The number that a text stands for in a sum; a text that is none counts as nothing. -/
def numeral (text : String) : Nat :=
  (Text.Chars.natural? text.toList).getD 0

@[simp] theorem numeral_repr (n : Nat) : numeral n.repr = n :=
  congrArg (Option.getD · 0) (Text.Chars.natural?_toString n)

/-- Whether a test between an output and a word holds. -/
def holds (polarity : Polarity) (output expected : String) : Bool :=
  match polarity with
  | .passOnEqual => output = expected
  | .passOnNotEqual => output ≠ expected

/-- The totals as they are printed. -/
def totals {σ : Type} (m : Memory σ) : String :=
  "pass=" ++ m.vars .pass ++ " fail=" ++ m.vars .fail ++ " failed:" ++ m.vars .failed

section Execution

variable {σ : Type} (host : Host σ) (machine : String)

mutual

/-- Runs a command. -/
def exec : Command → Memory σ → Memory σ
  | .lookUpHost, m => { m with hostname := machine }
  | .setDigit v digit, m => m.set v (toString digit)
  | .clear v, m => m.set v ""
  | .capture audit, m =>
    let (output, s) := (host.audit audit).run m.host
    { m with output := output, host := s }
  | .judge v polarity expected, m => m.set v (if holds polarity m.output expected then "1" else "0")
  | .configure command, m => { m with host := ((host.configure command).run m.host).2 }
  | .increment v, m => m.set v (toString (numeral (m.vars v) + 1))
  | .noteFailure label, m => m.set .failed (m.vars .failed ++ " " ++ label)
  | .say text, m => m.print text
  | .greet text, m => m.print (text ++ m.hostname)
  | .print text, m => m.print text
  | .summary, m => m.print (totals m)
  | .whenZero v body, m => if m.vars v = "0" then execAll body m else m
  | .ifOne v yes no, m => if m.vars v = "1" then execAll yes m else execAll no m

/-- Runs commands one after the other. -/
def execAll : List Command → Memory σ → Memory σ
  | [], m => m
  | c :: cs, m => execAll cs (exec c m)

end

theorem execAll_append (cs ds : List Command) (m : Memory σ) :
    execAll host machine (cs ++ ds) m =
      execAll host machine ds (execAll host machine cs m) := by
  induction cs generalizing m with
  | nil => rfl
  | cons c cs ih => rw [List.cons_append, execAll, execAll, ih]

end Execution

end NetworkCompiler.Shell
