import NetworkCompiler.Script.DiffReport
import NetworkCompiler.Terminal.Style

/-!
# Differences on a terminal

The text of a comparison with every line coloured by its sign.
-/

namespace NetworkCompiler.Script

/-- The style of a line of a comparison, by its first character that is not blank. -/
def diffLineStyle? (line : String) : Option Terminal.Style :=
  match (Text.trimStart line).toList.head? with
  | some '+' => some .green
  | some '-' => some .red
  | some '~' => some .yellow
  | some '!' => some .magenta
  | some '=' => some .dimmed
  | _ => none

/-- The entries as coloured text. -/
def diffTerminalText (color : Bool) (entries : List DiffEntry) : String :=
  Text.joinWith "\n" ((Text.lines (diffText entries)).map fun line =>
    match diffLineStyle? line with
    | some style => style.paint color line
    | none => line)

/-- The counts as coloured text. -/
def diffTerminalSummary (color : Bool) (entries : List DiffEntry) : String :=
  Terminal.Style.cyan.paint color (diffSummaryText entries)

end NetworkCompiler.Script
