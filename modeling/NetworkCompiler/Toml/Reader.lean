import NetworkCompiler.Toml.Scalar

/-!
# Reading TOML

`read?` reads a whole document: every line is a statement (a header, the header of an item of an
array of tables, or an assignment), and the statements are carried out one after the other on the
table of the document. Arrays and inline tables may stand at most 79 deep.
-/

namespace NetworkCompiler.Toml

/-- Drops a comment. -/
def skipComment (cs : List Char) : List Char :=
  match cs with
  | '#' :: cs => cs.dropWhile isPlain
  | cs => cs

/-- Drops blanks, comments and line ends; `fuel` bounds their number. -/
def skipLines : Nat → List Char → List Char
  | 0, cs => cs
  | fuel + 1, cs =>
    match newline? (skipComment (skipMargin cs)) with
    | some rest => skipLines fuel rest
    | none => skipMargin cs

/-! ## Keys -/

/-- Whether a character may stand in a bare key. -/
def isBare (c : Char) : Bool := c.isAlphanum || c = '_' || c = '-'

/-- One part of a key. -/
def keyPart? : Reader String
  | '"' :: cs => lineString? ('"' :: cs)
  | '\'' :: cs => lineString? ('\'' :: cs)
  | cs =>
    let bare := cs.takeWhile isBare
    if bare.isEmpty then none else some (String.ofList bare, cs.dropWhile isBare)

/-- A key: its parts with dots between them; blanks around the parts are dropped. -/
def key? : Nat → Reader (List String)
  | 0, _ => none
  | fuel + 1, cs => do
    let (part, rest) ← keyPart? (skipMargin cs)
    match skipMargin rest with
    | '.' :: rest =>
      let (parts, rest) ← key? fuel rest
      pure (part :: parts, rest)
    | rest => pure ([part], rest)

/-- How many parts a key may have. -/
def maxKeyParts : Nat := 79

/-- Splits the last part off a key. -/
def unsnoc (path : List String) : List String × String :=
  (path.dropLast, path.getLastD "")

/-! ## Values -/

/-- Puts an assignment into an inline table. -/
def assignInline? (es : Entries) (path : List String) (v : Value) : Option Entries :=
  let (parents, k) := unsnoc path
  es.assign? parents k v

/-- The items of an array behind its opening bracket or a comma. -/
def items? (item : Reader Value) : Nat → Reader (List Value)
  | 0, _ => none
  | fuel + 1, cs =>
    match skipLines (cs.length + 1) cs with
    | ']' :: rest => some ([], rest)
    | cs => do
      let (v, rest) ← item cs
      match skipLines (rest.length + 1) rest with
      | ',' :: rest =>
        let (vs, rest) ← items? item fuel rest
        pure (v :: vs, rest)
      | ']' :: rest => pure ([v], rest)
      | _ => none

/-- The assignments of an inline table from the first on. -/
def pairs? (item : Reader Value) : Nat → Entries → Reader Entries
  | 0, _, _ => none
  | fuel + 1, es, cs => do
    let (path, rest) ← key? maxKeyParts cs
    let rest ← expect? '=' rest
    let (v, rest) ← item (skipMargin rest)
    let es ← assignInline? es path v
    match skipMargin rest with
    | ',' :: rest => pairs? item fuel es rest
    | '}' :: rest => pure (es, rest)
    | _ => none

/-- A value in which arrays and inline tables stand at most `depth` deep. -/
def value? : Nat → List Char → Option (Value × List Char)
  | _, [] => none
  | depth, c :: cs =>
    if c = '"' || c = '\'' then (string? (c :: cs)).map fun (s, rest) => (.str s, rest)
    else if c = '[' then
      match depth with
      | 0 => none
      | depth + 1 => (items? (value? depth) (cs.length + 1) cs).map fun (vs, rest) =>
          (.arr vs, rest)
    else if c = '{' then
      match depth with
      | 0 => none
      | depth + 1 =>
        match skipMargin cs with
        | '}' :: rest => some (.table .inline [], rest)
        | _ => (pairs? (value? depth) (cs.length + 1) [] cs).map fun (es, rest) =>
            (.table .inline es, rest)
    else if c = 't' then
      (Text.Chars.after? ['r', 'u', 'e'] cs).map fun rest => (.bool true, rest)
    else if c = 'f' then
      (Text.Chars.after? ['a', 'l', 's', 'e'] cs).map fun rest => (.bool false, rest)
    else if c = 'i' || c = 'n' then real? (c :: cs)
    else numeral? (c :: cs)

/-- How deep arrays and inline tables may stand. -/
def maxDepth : Nat := 79

/-! ## Statements -/

/-- A line that states something. -/
inductive Statement where
  | table (path : List String)
  | item (path : List String)
  | assignment (path : List String) (value : Value)

/-- Expects the end of a line. -/
def lineEnd? (cs : List Char) : Option (List Char) :=
  match skipComment (skipMargin cs) with
  | [] => some []
  | cs => newline? cs

/-- One statement with the end of its line. -/
def statement? (cs : List Char) : Option (Statement × List Char) :=
  match cs with
  | '[' :: '[' :: rest => do
    let (path, rest) ← key? maxKeyParts rest
    let rest ← expect? ']' rest
    let rest ← expect? ']' rest
    let rest ← lineEnd? rest
    pure (.item path, rest)
  | '[' :: rest => do
    let (path, rest) ← key? maxKeyParts rest
    let rest ← expect? ']' rest
    let rest ← lineEnd? rest
    pure (.table path, rest)
  | cs => do
    let (path, rest) ← key? maxKeyParts cs
    let rest ← expect? '=' rest
    let (v, rest) ← value? maxDepth (skipMargin rest)
    let rest ← lineEnd? rest
    pure (.assignment path v, rest)

/-- The statements of a document. -/
def statements? : Nat → List Char → Option (List Statement)
  | 0, _ => none
  | fuel + 1, cs =>
    match skipLines (cs.length + 1) cs with
    | [] => some []
    | '#' :: cs => if (cs.dropWhile isPlain).isEmpty then some [] else none
    | cs => do
      let (s, rest) ← statement? cs
      let ss ← statements? fuel rest
      pure (s :: ss)

/-- A document in the making: its table, and the path of the table the next assignment goes to. -/
structure Progress where
  root : Entries
  current : List String

/-- Carries out one statement. -/
def Progress.step? (p : Progress) : Statement → Option Progress
  | .table path =>
    let (parents, k) := unsnoc path
    (p.root.update? .implied (fun _ es => es.declareTable? k) .header parents).map (⟨·, path⟩)
  | .item path =>
    let (parents, k) := unsnoc path
    (p.root.update? .implied (fun _ es => es.declareItem? k) .header parents).map (⟨·, path⟩)
  | .assignment path v =>
    let (parents, k) := unsnoc path
    (p.root.update? .implied (fun _ es => es.assign? parents k v) .header p.current).map
      (⟨·, p.current⟩)

/-- Drops a byte order mark. -/
def dropMark (cs : List Char) : List Char :=
  match cs with
  | c :: rest => if c.toNat = 0xFEFF then rest else cs
  | [] => []

/-- Reads a whole document. -/
def read? (text : String) : Option Entries := do
  let cs := dropMark text.toList
  let ss ← statements? (cs.length + 1) cs
  let p ← ss.foldlM Progress.step? ⟨[], []⟩
  pure p.root

end NetworkCompiler.Toml
