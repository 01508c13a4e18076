import NetworkCompiler.FileTree.Path
import NetworkCompiler.Text.Utf8

/-!
# File trees

A file system as a value: directories, files and symbolic links. `Tree.walk` follows a path
through it as the system does, link by link, and says what is there (`Place`). The operations
(`readBytes`, `write`, `makeDirectory`, `makeDirectories`, `markExecutable`, `canonical?`) take
the working directory, from which relative paths start.
-/

namespace NetworkCompiler

/-- A file, a symbolic link, or a directory with its entries. -/
inductive Tree where
  | file (content : ByteArray) (executable : Bool)
  | link (target : String)
  | dir (entries : List (String × Tree))
  deriving Inhabited

namespace Tree

/-- The entry of a directory. -/
def node? (name : String) : Tree → Option Tree
  | dir entries => (entries.find? fun e => e.1 = name).map (·.2)
  | _ => none

/-- Whether a node is a directory. -/
def isDirectory : Tree → Bool
  | dir _ => true
  | _ => false

/-- The node at the end of a list of names. -/
def at? : List String → Tree → Option Tree
  | [], t => some t
  | name :: names, t => (t.node? name).bind (at? names)

/-- Puts a node under a name, behind the entries there are or in the place of an older one. -/
def putEntry (name : String) (t : Tree) : List (String × Tree) → List (String × Tree)
  | [] => [(name, t)]
  | (n, u) :: es => if n = name then (n, t) :: es else (n, u) :: putEntry name t es

/-- Puts a node at the end of a list of names; directories on the way are made as needed. -/
def put (root : Tree) (names : List String) (t : Tree) : Tree :=
  match names with
  | [] => t
  | name :: names =>
    match root with
    | dir entries =>
      let inner := ((entries.find? fun e => e.1 = name).map (·.2)).getD (dir [])
      dir (putEntry name (put inner names t) entries)
    | _ => dir [(name, put (dir []) names t)]

/-- Where a path leads. -/
inductive Place where
  /-- To a node, at these names from the root. -/
  | present (names : List String) (node : Tree)
  /-- To a name that is free in an existing directory. -/
  | absent (parent : List String) (name : String)

/-- How long a name may be, in bytes. -/
def maxNameLength : Nat := 255

/-- How many links a path may follow. -/
def maxLinks : Nat := 40

/-- Where a link's target starts, for a link in the directory `here`. -/
def linkStart (here : List String) (target : String) : List String :=
  if Path.isAbsolute target then [] else here

/-- Follows names from the directory `here`; `last` says whether a link at the very end is
followed too. At a link `follow` goes on, with its directory, its target and the names behind it. -/
def walkNames (root : Tree) (last : Bool)
    (follow : List String → String → List String → Except FileFault Place) :
    List String → List String → Except FileFault Place
  | here, [] => match root.at? here with
    | some node => .ok (.present here node)
    | none => .error .notFound
  | here, name :: rest =>
    match root.at? here with
    | some (.dir entries) =>
      if name = "." then walkNames root last follow here rest
      else if name = ".." then walkNames root last follow here.dropLast rest
      else if maxNameLength < name.utf8ByteSize then .error .nameTooLong
      else match (Tree.dir entries).node? name with
        | none => if rest.isEmpty then .ok (.absent here name) else .error .notFound
        | some (.link target) =>
          if rest.isEmpty && !last then .ok (.present (here ++ [name]) (.link target))
          else follow here target rest
        | some _ => walkNames root last follow (here ++ [name]) rest
    | some _ => .error .notDirectory
    | none => .error .notFound

/-- Follows names and so many links. -/
def walk (root : Tree) (last : Bool) :
    Nat → List String → List String → Except FileFault Place
  | 0 => walkNames root last fun _ _ _ => .error .tooManyLinks
  | links + 1 => walkNames root last fun here target rest =>
    if target.isEmpty then .error .notFound
    else walk root last links (linkStart here target) (Path.components target ++ rest)

/-- Where a path leads from the working directory `cwd`. -/
def locate (root : Tree) (cwd : List String) (last : Bool) (path : String) :
    Except FileFault Place :=
  if path.isEmpty then .error .notFound
  else if path.toList.contains (Char.ofNat 0) then .error .invalidPath
  else walk root last maxLinks (if Path.isAbsolute path then [] else cwd) (Path.components path)

/-- The bytes of a file. -/
def readBytes (root : Tree) (cwd : List String) (path : String) : Except FileFault ByteArray :=
  match root.locate cwd true path with
  | .error e => .error e
  | .ok (.absent _ _) => .error .notFound
  | .ok (.present _ (.file content _)) => .ok content
  | .ok (.present _ (.dir _)) => .error .isDirectory
  | .ok (.present _ (.link _)) => .error .tooManyLinks

/-- Writes a file; one that exists keeps whether it can be run. -/
def write (root : Tree) (cwd : List String) (path : String) (content : ByteArray) :
    Except FileFault Tree :=
  match root.locate cwd true path with
  | .error e => .error e
  | .ok (.absent parent name) => .ok (root.put (parent ++ [name]) (.file content false))
  | .ok (.present names (.file _ executable)) => .ok (root.put names (.file content executable))
  | .ok (.present _ (.dir _)) => .error .isDirectory
  | .ok (.present _ (.link _)) => .error .tooManyLinks

/-- Marks a file as one that can be run. -/
def markExecutable (root : Tree) (cwd : List String) (path : String) : Except FileFault Tree :=
  match root.locate cwd true path with
  | .error e => .error e
  | .ok (.absent _ _) => .error .notFound
  | .ok (.present names (.file content _)) => .ok (root.put names (.file content true))
  | .ok (.present _ _) => .ok root

/-- Drops the slashes at the end of a path. -/
def dropSlashes (path : String) : String :=
  let kept := (path.toList.reverse.dropWhile (· = '/')).reverse
  if kept.isEmpty && !path.isEmpty then "/" else String.ofList kept

/-- Makes one directory, in one that exists. -/
def makeDirectory (root : Tree) (cwd : List String) (path : String) : Except FileFault Tree :=
  match root.locate cwd false (dropSlashes path) with
  | .error e => .error e
  | .ok (.present _ _) => .error .alreadyExists
  | .ok (.absent parent name) => .ok (root.put (parent ++ [name]) (.dir []))

/-- Whether a path leads to a directory. -/
def hasDirectory (root : Tree) (cwd : List String) (path : String) : Bool :=
  match root.locate cwd true path with
  | .ok (.present _ (.dir _)) => true
  | _ => false

/-- Whether a path leads to anything. -/
def hasNode (root : Tree) (cwd : List String) (path : String) : Bool :=
  match root.locate cwd true path with
  | .ok (.present _ _) => true
  | _ => false

/-- Makes a directory and those above it that are missing; `fuel` bounds their number. -/
def makeDirectoriesWithin (cwd : List String) : Nat → Tree → String → Except FileFault Tree
  | 0, root, path => root.makeDirectory cwd path
  | fuel + 1, root, path =>
    if path.isEmpty then .ok root
    else match root.makeDirectory cwd path with
      | .ok root => .ok root
      | .error .notFound =>
        match Path.parent? path with
        | none => .error .notFound
        | some parent =>
          match makeDirectoriesWithin cwd fuel root parent with
          | .error e => .error e
          | .ok root =>
            match root.makeDirectory cwd path with
            | .ok root => .ok root
            | .error e => if root.hasDirectory cwd path then .ok root else .error e
      | .error e => if root.hasDirectory cwd path then .ok root else .error e

/-- Makes a directory and those above it that are missing. -/
def makeDirectories (root : Tree) (cwd : List String) (path : String) : Except FileFault Tree :=
  makeDirectoriesWithin cwd path.length root path

/-- The names from the root to what a path leads to, all links followed. -/
def canonical? (root : Tree) (cwd : List String) (path : String) : Option (List String) :=
  match root.locate cwd true path with
  | .ok (.present names _) => some names
  | _ => none

/-- The text of a file, which has to be UTF-8. -/
def readText (root : Tree) (cwd : List String) (path : String) : Except FileFault String :=
  match root.readBytes cwd path with
  | .error e => .error e
  | .ok content =>
    match Text.decode? content with
    | some text => .ok text
    | none => .error .notUtf8

mutual

/-- Every file below a node: its names, its content and whether it can be run. -/
def files (at_ : List String) : Tree → List (List String × ByteArray × Bool)
  | file content executable => [(at_, content, executable)]
  | link _ => []
  | dir entries => filesOf at_ entries

/-- Every file below the entries of a directory. -/
def filesOf (at_ : List String) :
    List (String × Tree) → List (List String × ByteArray × Bool)
  | [] => []
  | (name, t) :: es => files (at_ ++ [name]) t ++ filesOf at_ es

end

/-- A tree with files, directories and links, put in place in this order in the directory
`cwd`. -/
def ofContents (cwd : List String) (files : List (String × ByteArray)) (dirs : List String)
    (links : List (String × String)) : Tree :=
  let names (path : String) := cwd ++ (Path.components path).filter (· ≠ ".")
  let root := (dir []).put cwd (dir [])
  let root := files.foldl (fun t f => t.put (names f.1) (.file f.2 false)) root
  let root := dirs.foldl (fun t d =>
    match t.makeDirectories cwd d with
    | .ok t => t
    | .error _ => t) root
  links.foldl (fun t l => t.put (names l.1) (.link l.2)) root

end Tree

end NetworkCompiler
