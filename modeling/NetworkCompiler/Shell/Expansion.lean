import NetworkCompiler.Shell.Arithmetic
import NetworkCompiler.Shell.Pattern

/-!
# What words stand for

A word is replaced in two steps. First its parts become pieces, which know whether they may be
split and matched (`piecesOf`). Then the pieces become fields (`Piece.fields`), a text or a
pattern. How the output of a script is taken is a parameter (`capture`) throughout.
-/

namespace NetworkCompiler.Shell

/-- A piece of what a word stands for. -/
inductive Piece where
  /-- A text that stands for itself. -/
  | fixed (s : String)
  /-- A text of the word, which is not split. -/
  | text (s : String)
  /-- A text that replaced something, which is split. -/
  | loose (s : String)
  /-- The end of a field; `always` says whether the field counts if nothing stands in it. -/
  | cut (always : Bool)
  deriving DecidableEq, Repr

namespace Piece

/-- What replaces a part of a word. -/
def replacement (quoted : Bool) (s : String) : Piece := if quoted then fixed s else loose s

/-- A piece that is split if it is not quoted. -/
def loosen : Piece → Piece
  | text s => loose s
  | p => p

/-- The pieces as one text. -/
def join (ps : List Piece) : String :=
  String.join <| ps.map fun
    | fixed s => s
    | text s => s
    | loose s => s
    | cut _ => " "

/-- The pieces as one pattern. -/
def pattern (ps : List Piece) : Pattern :=
  Pattern.ofChars <| ps.flatMap fun
    | fixed s => s.toList.map (·, true)
    | text s => s.toList.map (·, false)
    | loose s => s.toList.map (·, false)
    | cut _ => [(' ', true)]

/-! ## Fields -/

/-- What is known while fields are made. -/
structure Splitting where
  /-- The fields that have ended, last one first. -/
  ended : List String := []
  /-- The field that has begun. -/
  current : Option String := none
  /-- Whether a blank ended the last field. -/
  spaced : Bool := false

namespace Splitting

/-- Adds to the field that has begun, or begins one. -/
def put (f : Splitting) (s : String) : Splitting :=
  { f with current := some (f.current.getD "" ++ s), spaced := false }

/-- Ends a field, if one has begun or it counts in any case. -/
def finish (f : Splitting) (always : Bool) : Splitting :=
  match f.current with
  | some s => { f with ended := s :: f.ended, current := none }
  | none => if always then { f with ended := "" :: f.ended } else f

/-- One character of a text that is split. -/
def step (separators : List Char) (f : Splitting) (c : Char) : Splitting :=
  if c ∈ separators then
    if c = ' ' || c = '\t' || c = '\n' then
      if f.current.isSome then { f.finish false with spaced := true } else f
    else if f.current.isNone && f.spaced then { f with spaced := false }
    else { f.finish true with spaced := false }
  else f.put c.toString

end Splitting

/-- The fields of some pieces. -/
def fields (separators : List Char) (ps : List Piece) : List String :=
  let f := ps.foldl (fun (f : Splitting) p =>
    match p with
    | fixed s => f.put s
    | text s => if s.isEmpty then f else f.put s
    | loose s => s.toList.foldl (Splitting.step separators) f
    | cut always => { f.finish always with spaced := false }) {}
  (f.finish false).ended.reverse

end Piece

/-- A text without the line feeds at its end. -/
def dropLineFeeds (s : String) : String :=
  String.ofList ((s.toList.reverse.dropWhile (· = '\n')).reverse)

/-- The pieces of all arguments of a shell. -/
def argumentPieces (quoted joined : Bool) (arguments : List String) (separators : List Char) :
    List Piece :=
  if quoted && joined then
    [.fixed (Text.joinWith ((separators.head?.map Char.toString).getD "") arguments)]
  else (arguments.map (Piece.replacement quoted)).intersperse (.cut quoted)

/-- Whether some parts consist of all arguments one by one. -/
def isArguments : List WordPart → Bool
  | [.parameter "@" .value _] => true
  | _ => false

mutual

/-- The pieces of a part of a word. -/
def piecesOfPart (capture : String → Run String) (quoted : Bool) : WordPart → Run (List Piece)
  | .text s => pure [.text s]
  | .quoted s => pure [.fixed s]
  | .together parts => do
    let inner ← piecesOf capture true parts
    pure (if inner.isEmpty && !isArguments parts then [.fixed ""] else inner)
  | .output script => do
    let s ← capture script
    pure [Piece.replacement quoted (dropLineFeeds s)]
  | .arithmetic parts => do
    let inner ← piecesOf capture true parts
    match readSum? (Piece.join inner) with
    | none => Run.fatal
    | some e => do
      let n ← e.value
      pure [Piece.replacement quoted (toString n)]
  | .parameter name use operand => do
    let all := name = "@" || name = "*"
    let arguments := (← get).arguments
    let value ← if all then
        pure (if arguments.isEmpty then none else some (Text.joinWith " " arguments))
      else Run.parameter? name
    let whole ← if all then
        pure (argumentPieces quoted (name = "*") arguments (← Run.separators))
      else pure [Piece.replacement quoted (value.getD "")]
    let given (empty : Bool) : Bool := value.any fun v => !empty || !v.isEmpty
    match use with
    | .value =>
      if value.isNone && !all && (← get).needsValues then Run.fatal
      pure whole
    | .length =>
      if all then return [Piece.replacement quoted (toString arguments.length)]
      if value.isNone && (← get).needsValues then Run.fatal
      pure [Piece.replacement quoted (toString (value.getD "").length)]
    | .default empty =>
      if given empty then pure whole
      else return (← piecesOf capture quoted operand).map Piece.loosen
    | .alternative empty =>
      if given empty then return (← piecesOf capture quoted operand).map Piece.loosen
      else pure []
    | .assign empty =>
      if given empty then pure whole
      else do
        if !isName name then Run.fatal
        let s := Piece.join (← piecesOf capture quoted operand)
        Run.assign name s
        pure [Piece.replacement quoted s]
    | .require empty => if given empty then pure whole else Run.fatal
    | .dropFront longest => do
      if value.isNone && !all && (← get).needsValues then Run.fatal
      let p := Piece.pattern (← piecesOf capture false operand)
      pure [Piece.replacement quoted (Pattern.dropFront longest p (value.getD ""))]
    | .dropBack longest => do
      if value.isNone && !all && (← get).needsValues then Run.fatal
      let p := Piece.pattern (← piecesOf capture false operand)
      pure [Piece.replacement quoted (Pattern.dropBack longest p (value.getD ""))]

/-- The pieces of a word. -/
def piecesOf (capture : String → Run String) (quoted : Bool) : List WordPart → Run (List Piece)
  | [] => pure []
  | p :: ps => do
    let front ← piecesOfPart capture quoted p
    return front ++ (← piecesOf capture quoted ps)

end

/-- The fields that some words stand for. -/
def fieldsOf (capture : String → Run String) : List Word → Run (List String)
  | [] => pure []
  | w :: ws => do
    let ps ← piecesOf capture false w
    let front := Piece.fields (← Run.separators) ps
    return front ++ (← fieldsOf capture ws)

/-- The one text that a word stands for where nothing is split. -/
def textOf (capture : String → Run String) (w : Word) : Run String := do
  return Piece.join (← piecesOf capture false w)

/-- The pattern that a word stands for. -/
def patternOf (capture : String → Run String) (w : Word) : Run Pattern := do
  return Piece.pattern (← piecesOf capture false w)

end NetworkCompiler.Shell
