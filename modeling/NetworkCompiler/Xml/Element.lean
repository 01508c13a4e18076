import NetworkCompiler.Text.Split

/-!
# Marked-up documents

Elements with attributes that hold nothing, text, or other elements. `Element.document` writes
one as a document: each element on a line of its own, indented by two spaces a level, text beside
its tags. `escape` keeps text apart from markup.
-/

namespace NetworkCompiler.Xml

/-- An element. -/
inductive Element where
  | empty (tag : String) (attributes : List (String × String))
  | text (tag : String) (content : String)
  | parent (tag : String) (attributes : List (String × String)) (children : List Element)

/-- A character of text between markup. -/
def escapeChar : Char → List Char
  | '<' => "&lt;".toList
  | '>' => "&gt;".toList
  | '&' => "&amp;".toList
  | '\'' => "&apos;".toList
  | '"' => "&quot;".toList
  | c => [c]

/-- Text between markup. -/
def escape (s : String) : String :=
  String.ofList (s.toList.flatMap escapeChar)

/-- An attribute with a space in front of it. -/
def attributeText (a : String × String) : String :=
  " " ++ a.1 ++ "=\"" ++ escape a.2 ++ "\""

/-- A tag and its attributes, without the brackets. -/
def tagText (tag : String) (attributes : List (String × String)) : String :=
  tag ++ String.join (attributes.map attributeText)

/-- The blanks in front of a line. -/
def indent (depth : Nat) : String :=
  String.ofList (List.replicate (2 * depth) ' ')

mutual

/-- The lines of an element. -/
def Element.lines (depth : Nat) : Element → List String
  | .empty tag attributes => [indent depth ++ "<" ++ tagText tag attributes ++ "/>"]
  | .text tag content => [indent depth ++ "<" ++ tag ++ ">" ++ escape content ++ "</" ++ tag ++ ">"]
  | .parent tag attributes children =>
    (indent depth ++ "<" ++ tagText tag attributes ++ ">") ::
      (linesOf (depth + 1) children ++ [indent depth ++ "</" ++ tag ++ ">"])

/-- The lines of a list of elements. -/
def linesOf (depth : Nat) : List Element → List String
  | [] => []
  | e :: es => e.lines depth ++ linesOf depth es

end

/-- An element as a whole document, without a line end at its end. -/
def Element.document (e : Element) : String :=
  Text.joinWith "\n" ("<?xml version=\"1.0\" encoding=\"utf-8\"?>" :: e.lines 0)

end NetworkCompiler.Xml
