import NetworkCompiler.Json.Printer
import NetworkCompiler.Script.Diff

/-!
# Reporting differences

The counts of a comparison (`DiffSummary`), and its entries as text (`diffText`) or as a JSON
document (`diffJson`). A text has one headline per entry, `~` changed, `+` added, `-` removed,
`=` unchanged, `!` structural, followed by the lines concerned.
-/

namespace NetworkCompiler.Script

/-- The counts of a comparison, in entries and in lines. -/
structure DiffSummary where
  unchanged : Nat := 0
  changed : Nat := 0
  removed : Nat := 0
  added : Nat := 0
  structural : Nat := 0
  linesRemoved : Nat := 0
  linesAdded : Nat := 0
  deriving DecidableEq, Repr

namespace DiffSummary

/-- Counts one more difference. -/
def add (s : DiffSummary) : Difference → DiffSummary
  | .unchanged => { s with unchanged := s.unchanged + 1 }
  | .changed _ removed added =>
    { s with
      changed := s.changed + 1
      linesRemoved := s.linesRemoved + removed.length
      linesAdded := s.linesAdded + added.length }
  | .removed _ body =>
    { s with removed := s.removed + 1, linesRemoved := s.linesRemoved + body.length }
  | .added _ body =>
    { s with added := s.added + 1, linesAdded := s.linesAdded + body.length }
  | .structural _ => { s with structural := s.structural + 1 }

/-- The counts of a list of entries. -/
def ofEntries (entries : List DiffEntry) : DiffSummary :=
  entries.foldl (fun s e => s.add e.difference) {}

/-- Whether nothing differs. -/
def isClean (s : DiffSummary) : Bool :=
  s.changed + s.removed + s.added + s.structural = 0

/-- The counts on one line. -/
def text (s : DiffSummary) : String :=
  s!"unchanged={s.unchanged} changed={s.changed} removed={s.removed} added={s.added} " ++
    s!"structural={s.structural} lines=+{s.linesAdded}/-{s.linesRemoved}"

/-- The counts as a JSON object. -/
def json (s : DiffSummary) : Json.Value :=
  .obj [("unchanged", .int s.unchanged), ("changed", .int s.changed), ("removed", .int s.removed),
    ("added", .int s.added), ("structural", .int s.structural),
    ("lines_removed", .int s.linesRemoved), ("lines_added", .int s.linesAdded)]

end DiffSummary

/-- The margin of the lines under a headline. -/
def bodyMargin : String := "    "

/-- A marker as it is shown, where it may be missing. -/
def shownMarker (marker : String) : String :=
  if marker.isEmpty then "(none)" else marker

/-- The headline of a section that is on one side only. -/
def oneSidedHeadline (sign path marker : String) (count : Nat) : String :=
  let noun := if count = 1 then "line" else "lines"
  let shown := if marker.isEmpty then "" else " " ++ marker
  s!"{sign} {path}{shown} ({count} {noun})"

/-- Lines under a headline, each with its sign. -/
def signedLines (sign : String) (ls : List String) : List String :=
  ls.map fun l => bodyMargin ++ sign ++ " " ++ l

/-- The text lines of an entry, headline first. -/
def DiffEntry.textLines (e : DiffEntry) : List String :=
  match e.difference with
  | .unchanged => [s!"= {e.path}"]
  | .changed marker removed added =>
    let markerLine := marker.toList.map fun m =>
      s!"{bodyMargin}marker: {shownMarker m.before} -> {shownMarker m.after}"
    s!"~ {e.path}" :: (markerLine ++ signedLines "-" removed ++ signedLines "+" added)
  | .removed marker body =>
    oneSidedHeadline "-" e.path marker body.length :: signedLines "-" body
  | .added marker body =>
    oneSidedHeadline "+" e.path marker body.length :: signedLines "+" body
  | .structural cause => [s!"! {e.path}: {cause.message}"]

/-- The entries as text, without a final line feed. -/
def diffText (entries : List DiffEntry) : String :=
  Text.joinWith "\n" (entries.flatMap DiffEntry.textLines)

/-- The counts of a comparison as text. -/
def diffSummaryText (entries : List DiffEntry) : String :=
  (DiffSummary.ofEntries entries).text

/-- A list of texts as a JSON list. -/
def jsonTexts (l : List String) : Json.Value :=
  .arr (l.map .str)

/-- An entry as a JSON object. -/
def DiffEntry.json (e : DiffEntry) : Json.Value :=
  let path := ("path", Json.Value.str e.path)
  match e.difference with
  | .unchanged => .obj [("change", .str "unchanged"), path]
  | .changed marker removed added =>
    let markers := marker.toList.map fun m =>
      ("marker", Json.Value.obj [("before", .str m.before), ("after", .str m.after)])
    .obj ([("change", .str "changed"), path] ++ markers ++
      [("removed", jsonTexts removed), ("added", jsonTexts added)])
  | .removed marker body =>
    .obj [("change", .str "removed"), path, ("marker", .str marker), ("body", jsonTexts body)]
  | .added marker body =>
    .obj [("change", .str "added"), path, ("marker", .str marker), ("body", jsonTexts body)]
  | .structural cause =>
    .obj [("change", .str "structural"), path, ("description", .str cause.message)]

/-- A comparison as a JSON document: the counts, then the entries. -/
def diffJson (entries : List DiffEntry) : Json.Value :=
  .obj [("summary", (DiffSummary.ofEntries entries).json),
    ("entries", .arr (entries.map DiffEntry.json))]

end NetworkCompiler.Script
