/-!
# Comments in JSON

JSON with `//` and `/* */` comments, outside string literals. `stripComments` removes them and
keeps every line feed, so that lines keep their numbers; it fails on a block comment that is never
closed.
-/

namespace NetworkCompiler.Json

/-- Where a reader stands with respect to comments and string literals. -/
inductive CommentState where
  | code
  | literal
  /-- In a literal, just behind a backslash. -/
  | escaped
  | lineComment
  /-- In a block comment, and whether the character before was a star. -/
  | blockComment (afterStar : Bool)
  deriving DecidableEq, Repr

/-- The text without comments, read from a given state. -/
def stripFrom : CommentState → List Char → Option (List Char)
  | .blockComment _, [] => none
  | _, [] => some []
  | .code, '/' :: '/' :: cs => stripFrom .lineComment cs
  | .code, '/' :: '*' :: cs => stripFrom (.blockComment false) cs
  | .code, c :: cs =>
    (stripFrom (if c = '"' then .literal else .code) cs).map (c :: ·)
  | .literal, c :: cs =>
    let next := if c = '\\' then .escaped else if c = '"' then .code else .literal
    (stripFrom next cs).map (c :: ·)
  | .escaped, c :: cs => (stripFrom .literal cs).map (c :: ·)
  | .lineComment, c :: cs =>
    if c = '\n' then (stripFrom .code cs).map ('\n' :: ·) else stripFrom .lineComment cs
  | .blockComment afterStar, c :: cs =>
    if afterStar && c = '/' then stripFrom .code cs
    else if c = '\n' then (stripFrom (.blockComment false) cs).map ('\n' :: ·)
    else stripFrom (.blockComment (c = '*')) cs

/-- The text without comments. -/
def stripComments (text : String) : Option String :=
  (stripFrom .code text.toList).map String.ofList

end NetworkCompiler.Json
