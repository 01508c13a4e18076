import NetworkCompiler.Text.Split

/-!
# Paths

Paths as they are written: names with slashes between them. `join` puts a path behind another one
unless it is absolute, `parent` drops the last name. `FileFault` is why the system refuses to read
or write a file at a path, worded as the system words it.
-/

namespace NetworkCompiler.Path

/-- Whether a path starts at the root. -/
def isAbsolute (path : String) : Bool :=
  path.toList.head? = some '/'

/-- Puts a path behind a base; an absolute path replaces the base. -/
def join (base path : String) : String :=
  if isAbsolute path || base.isEmpty then path
  else if base.toList.getLast? = some '/' then base ++ path
  else base ++ "/" ++ path

/-- Whether a piece between slashes names nothing: it is empty, or a dot that does not stand at
the very front. -/
def isIdle (front : Bool) (piece : String) : Bool :=
  piece.isEmpty || (piece = "." && !front)

/-- Drops the idle pieces at the end; the pieces are listed last to first. -/
def dropIdle : List String → List String
  | [] => []
  | piece :: rest => if isIdle rest.isEmpty piece then dropIdle rest else piece :: rest

/-- The path without its last name, nothing if it has no name to drop. -/
def parent? (path : String) : Option String :=
  let pieces := dropIdle (Text.splitAt '/' path).reverse
  match pieces with
  | [] => none
  | _ :: rest =>
    let kept := dropIdle rest
    let front := if isAbsolute path then "/" else ""
    some (match kept with
      | [] => front
      | _ => Text.joinWith "/" kept.reverse)

/-- The path without its last name; empty if it has no name to drop. -/
def parent (path : String) : String :=
  (parent? path).getD ""

/-- The names to follow, in order. A slash at the end asks for a directory, as a dot does. -/
def components (path : String) : List String :=
  let pieces := Text.splitAt '/' path
  let names := pieces.filter fun p => !p.isEmpty
  if pieces.getLast? = some "" && !names.isEmpty then names ++ ["."] else names

end NetworkCompiler.Path

namespace NetworkCompiler

/-- A failure of a file operation. -/
inductive FileFault where
  | notFound
  | isDirectory
  | notDirectory
  | alreadyExists
  | tooManyLinks
  | nameTooLong
  | invalidPath
  | notUtf8
  deriving DecidableEq, Repr

/-- The wording of a file fault. -/
def FileFault.message : FileFault → String
  | notFound => "No such file or directory (os error 2)"
  | isDirectory => "Is a directory (os error 21)"
  | notDirectory => "Not a directory (os error 20)"
  | alreadyExists => "File exists (os error 17)"
  | tooManyLinks => "Too many levels of symbolic links (os error 40)"
  | nameTooLong => "File name too long (os error 36)"
  | invalidPath => "file name contained an unexpected NUL byte"
  | notUtf8 => "stream did not contain valid UTF-8"

end NetworkCompiler
