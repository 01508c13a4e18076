import NetworkCompiler.Dictionary

/-!
# Script trees

A shell script as a tree of `Node`s: documents, sections between marker comments, blocks with an
opening and a closing line, single lines, comments and blank lines. Sections carry attributes,
which are written after their name. The queries (`child?`, `childrenNamed`, `path?`) see direct
child sections only.
-/

namespace NetworkCompiler.Script

/-- What a node is written as. -/
inductive Kind where
  /-- The whole script; its text is the interpreter line. -/
  | document
  /-- A named region between two marker comments. -/
  | sect
  /-- An opening line, indented children, a closing line. -/
  | block
  /-- One command, of one or more lines. -/
  | line
  /-- A remark. -/
  | comment
  /-- An empty line. -/
  | blank
  deriving DecidableEq, Repr, Inhabited

namespace Kind

/-- The word for a kind in a serialised tree. -/
def word : Kind → String
  | document => "document"
  | sect => "section"
  | block => "block"
  | line => "line"
  | comment => "comment"
  | blank => "blank"

/-- The word for a kind in a message. -/
def title : Kind → String
  | document => "Document"
  | sect => "Section"
  | block => "Block"
  | line => "Line"
  | comment => "Comment"
  | blank => "Blank"

/-- All kinds. -/
def all : List Kind :=
  [document, sect, block, line, comment, blank]

/-- The kind of a word. -/
def ofWord? (w : String) : Option Kind :=
  all.find? (·.word == w)

end Kind

/-- A node of a script tree. -/
structure Node where
  kind : Kind
  /-- The name of a section. -/
  name : String := ""
  /-- What a section says about itself, by ascending key. -/
  attributes : Dictionary String String := []
  /-- The text of a line or comment, the opening line of a block, the interpreter line. -/
  text : Option String := none
  /-- The closing line of a block. -/
  close : Option String := none
  children : List Node := []
  deriving BEq, Repr, Inhabited

namespace Node

/-- A document with an interpreter line. -/
def document (interpreter : Option String) (children : List Node) : Node :=
  { kind := .document, text := interpreter, children := children }

/-- A section with its attributes. -/
def sect (name : String) (attributes : List (String × String)) (children : List Node) : Node :=
  { kind := .sect, name := name, attributes := Dictionary.ofList attributes, children := children }

/-- A block between two lines. -/
def block (first last : String) (children : List Node) : Node :=
  { kind := .block, text := some first, close := some last, children := children }

/-- One command. -/
def line (text : String) : Node :=
  { kind := .line, text := some text }

/-- A remark, without the mark in front of it. -/
def comment (text : String) : Node :=
  { kind := .comment, text := some text }

/-- An empty line. -/
def blank : Node :=
  { kind := .blank }

/-- The text of a node, nothing where it has none. -/
def textD (n : Node) : String :=
  n.text.getD ""

/-- Whether a node is a section. -/
def isSection (n : Node) : Bool :=
  n.kind = .sect

/-- The sections directly below a node, in order. -/
def sections (n : Node) : List Node :=
  n.children.filter isSection

/-- The sections of one name directly below a node. -/
def childrenNamed (n : Node) (name : String) : List Node :=
  n.sections.filter (·.name = name)

/-- The first section of a name directly below a node. -/
def child? (n : Node) (name : String) : Option Node :=
  n.sections.find? (·.name = name)

/-- The section reached by following names downwards. -/
def path? (n : Node) (names : List String) : Option Node :=
  names.foldlM child? n

mutual

/-- How many nodes a tree has, its root counted. -/
def count : Node → Nat
  | ⟨_, _, _, _, _, children⟩ => 1 + countAll children

/-- How many nodes the trees of a list have. -/
def countAll : List Node → Nat
  | [] => 0
  | n :: ns => count n + countAll ns

end

mutual

/-- Every node of a tree with its depth, parents before children. -/
def preorder (depth : Nat) : Node → List (Nat × Node)
  | ⟨kind, name, attributes, text, close, children⟩ =>
    (depth, ⟨kind, name, attributes, text, close, children⟩) :: preorderAll (depth + 1) children

/-- Every node of the trees of a list with its depth. -/
def preorderAll (depth : Nat) : List Node → List (Nat × Node)
  | [] => []
  | n :: ns => preorder depth n ++ preorderAll depth ns

end

end Node

end NetworkCompiler.Script
