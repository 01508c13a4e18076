import NetworkCompiler.Script.Node
import NetworkCompiler.Text.Split

/-!
# Printing script trees

`Node.lines` lists the physical lines of a tree and `Node.render` joins them, a line feed behind
each. A block indents its children by one step, a section does not. Only the first physical line
of a command is indented, so that here-documents and their delimiters keep their column.
-/

namespace NetworkCompiler.Script

/-- What opens a section in a rendered script. -/
def sectionBegin : String := "# >>> "

/-- What closes a section in a rendered script. -/
def sectionEnd : String := "# <<< "

/-- One step of indentation. -/
def indentStep : String := "    "

/-- The margin of a nesting depth. -/
def margin : Nat → String
  | 0 => ""
  | n + 1 => indentStep ++ margin n

/-- The physical lines of a text of one or more lines: the first is indented unless it is empty. -/
def textLines (depth : Nat) (text : String) : List String :=
  match Text.splitAt '\n' text with
  | [] => []
  | first :: rest => (if first.isEmpty then first else margin depth ++ first) :: rest

/-- A section's attributes as they stand behind its name. -/
def markerOf (attributes : List (String × String)) : String :=
  Text.joinWith " " (attributes.map fun (k, v) => k ++ "=" ++ v)

/-- The line that opens a section. -/
def beginLine (name : String) (attributes : List (String × String)) : String :=
  sectionBegin ++ name ++ String.join (attributes.map fun (k, v) => " " ++ k ++ "=" ++ v)

/-- The line of one line of a remark. -/
def remarkLine (text : String) : String :=
  if text.isEmpty then "#" else "# " ++ text

/-- The lines of a remark; an empty one still shows its mark. -/
def remarkLines (text : String) : List String :=
  if text.isEmpty then ["#"] else (Text.lines text).map remarkLine

namespace Node

mutual

/-- The physical lines of a tree that stands at a nesting depth. -/
def lines (depth : Nat) : Node → List String
  | ⟨.document, _, _, text, _, children⟩ =>
    (match text with | some t => textLines 0 t | none => []) ++ linesAll depth children
  | ⟨.sect, name, attributes, _, _, children⟩ =>
    textLines depth (beginLine name attributes) ++ linesAll depth children ++
      textLines depth (sectionEnd ++ name)
  | ⟨.block, _, _, text, close, children⟩ =>
    (match text with | some t => textLines depth t | none => []) ++
      linesAll (depth + 1) children ++
      (match close with | some t => textLines depth t | none => [])
  | ⟨.line, _, _, text, _, _⟩ => textLines depth (text.getD "")
  | ⟨.comment, _, _, text, _, _⟩ => (remarkLines (text.getD "")).flatMap (textLines depth)
  | ⟨.blank, _, _, _, _, _⟩ => [""]

/-- The physical lines of the trees of a list. -/
def linesAll (depth : Nat) : List Node → List String
  | [] => []
  | n :: ns => lines depth n ++ linesAll depth ns

end

/-- The text of a tree. It is empty, or ends with a line feed. -/
def render (n : Node) : String :=
  Text.unlines (n.lines 0)

end Node

end NetworkCompiler.Script
