import NetworkCompiler.Script.Printer
import NetworkCompiler.Text.Split

/-!
# Reading rendered scripts back

`parse` rebuilds the sections of a rendered script from their marker comments. What stands
between two markers comes back line by line: an empty line as `blank`, a remark at the margin as
`comment`, everything else as a `line` that keeps its indentation. A first line that names an
interpreter belongs to the document. The reader fails exactly when the markers do not nest, and
then `Malformed` names the line and the fault.
-/

namespace NetworkCompiler.Script

/-- How the markers of a script fail to nest. -/
inductive Misnesting where
  /-- A section ends while none is open. -/
  | endWithoutBegin (name : String)
  /-- A section ends under another name than the innermost open one. -/
  | endMismatch (name opened : String)
  /-- A section is still open at the end. -/
  | unclosed (opened : String)
  deriving DecidableEq, Repr

/-- A script whose markers do not nest, and the number of the line that shows it. -/
structure Malformed where
  line : Nat
  fault : Misnesting
  deriving DecidableEq, Repr

/-- The wording of a nesting fault. -/
def Misnesting.message : Misnesting → String
  | endWithoutBegin name => s!"section end '{name}' without open section"
  | endMismatch name opened => s!"section end '{name}' does not match open section '{opened}'"
  | unclosed opened => s!"unclosed section '{opened}' at end of script"

/-- The wording of a parse failure. -/
def Malformed.message (e : Malformed) : String :=
  s!"malformed script at line {e.line}: {e.fault.message}"

/-- What one physical line means to the reader. -/
inductive LineShape where
  /-- It opens a section. -/
  | opening (name : String) (attributes : Dictionary String String)
  /-- It closes a section; the text behind the marker is kept as written. -/
  | closing (rest : String)
  /-- It stands for itself. -/
  | plain (node : Node)
  deriving BEq, Repr

/-- The attribute a word of an opening marker states, if it has an equals sign. -/
def attribute? (word : String) : Option (String × String) :=
  Text.cutAt? '=' word

/-- The name and the attributes behind an opening marker. -/
def openingOf (marker : String) : LineShape :=
  match Text.words marker with
  | [] => .opening "" []
  | name :: rest => .opening name (Dictionary.ofList (rest.filterMap attribute?))

/-- The node of a line that is no marker. -/
def plainNode (raw : String) : Node :=
  if raw.isEmpty then .blank
  else if raw = "#" then .comment ""
  else match Text.after? "# " raw with
    | some remark => .comment remark
    | none => .line raw

/-- Reads one physical line. Markers may be indented. -/
def LineShape.ofLine (raw : String) : LineShape :=
  let start := Text.trimStart raw
  match Text.after? sectionBegin start with
  | some marker => openingOf marker
  | none =>
    match Text.after? sectionEnd start with
    | some rest => .closing rest
    | none => .plain (plainNode raw)

/-- A section that is still open: its name, its attributes and its children, last first. -/
structure OpenSection where
  name : String
  attributes : Dictionary String String
  children : List Node

/-- The section of an open section that is closed now. -/
def OpenSection.close (o : OpenSection) : Node :=
  { kind := .sect, name := o.name, attributes := o.attributes, children := o.children.reverse }

/-- Reads lines from number `lineNo` on, below the open sections `stack` (innermost first) and
the document's children so far (last first). -/
def parseLines (total : Nat) :
    Nat → List OpenSection → List Node → List String → Except Malformed (List Node)
  | _, [], top, [] => .ok top.reverse
  | _, o :: _, _, [] => .error ⟨total, .unclosed o.name⟩
  | lineNo, stack, top, raw :: rest =>
    match LineShape.ofLine raw, stack with
    | .opening name attributes, stack =>
      parseLines total (lineNo + 1) (⟨name, attributes, []⟩ :: stack) top rest
    | .closing written, [] => .error ⟨lineNo, .endWithoutBegin written⟩
    | .closing written, o :: stack =>
      if o.name = Text.trim written then
        match stack with
        | [] => parseLines total (lineNo + 1) [] (o.close :: top) rest
        | p :: stack =>
          parseLines total (lineNo + 1) ({ p with children := o.close :: p.children } :: stack)
            top rest
      else .error ⟨lineNo, .endMismatch (Text.trim written) o.name⟩
    | .plain node, [] => parseLines total (lineNo + 1) [] (node :: top) rest
    | .plain node, o :: stack =>
      parseLines total (lineNo + 1) ({ o with children := node :: o.children } :: stack) top rest

/-- Whether a line names an interpreter. -/
def isInterpreterLine (raw : String) : Bool :=
  (Text.after? "#!" raw).isSome

/-- Reads a rendered script back as a document. -/
def parse (text : String) : Except Malformed Node :=
  let ls := Text.lines text
  let (interpreter, body, first) :=
    match ls with
    | raw :: rest => if isInterpreterLine raw then (some raw, rest, 2) else (none, ls, 1)
    | [] => (none, ls, 1)
  (parseLines ls.length first [] [] body).map (Node.document interpreter)

end NetworkCompiler.Script
