import NetworkCompiler.FileTree.Path
import NetworkCompiler.InputError
import NetworkCompiler.Json.Comments
import NetworkCompiler.Json.Printer
import NetworkCompiler.Json.Reader
import NetworkCompiler.Network.Description

/-!
# Loading network descriptions

A document is JSON with comments whose members are networks. A network may name another document
to include: its members are merged under the network's own, and it may not include further. How a
file's text is come by is left to the caller, who passes a function that reads one.
-/

namespace NetworkCompiler

open Json (Value)

/-- Networks by their names. -/
abbrev Networks := Dictionary String Description

/-- The object a document holds; `origin` names the document in errors. -/
def parseObject (origin text : String) : Except InputError (List (String × Value)) :=
  match Json.stripComments text with
  | none => .error (.invalidValue origin "comments" "/*" "a terminated block comment")
  | some clean =>
    match Json.read? clean with
    | none => .error (.json origin .malformed)
    | some (.obj members) => .ok members
    | some _ =>
      .error (.invalidValue origin "document" "non-object" "an object keyed by network name")

/-- The network of an object; `origin` names the document in errors. -/
def describe (origin name : String) (members : List (String × Value)) :
    Except InputError Description :=
  match DescriptionJson.description? (.obj members) with
  | some description => .ok description
  | none => .error (.json s!"{origin} (network {name})" .mistyped)

section Loading

variable {m : Type → Type} [Monad m] (readText : String → m (Except FileFault String))

/-- The object a file holds. -/
def readObject (path : String) : m (Except InputError (List (String × Value))) := do
  match ← readText path with
  | .error cause => pure (.error (.unreadable path cause))
  | .ok text => pure (parseObject path text)

/-- The members of a network with those of the included document under them. -/
def resolveInclude (base network : String) (entry : Value) :
    m (Except InputError (List (String × Value))) := do
  match entry with
  | .obj members =>
    let own := Dictionary.erase "include" members
    match Dictionary.get? "include" members with
    | none => pure (.ok own)
    | some (.str included) =>
      let path := Path.join base included
      match ← readObject readText path with
      | .error e => pure (.error (.badInclude network path (.document e.message)))
      | .ok merged =>
        if (Dictionary.get? "include" merged).isSome then
          pure (.error (.badInclude network path .nested))
        else pure (.ok (Dictionary.override merged own))
    | some other => pure (.error (.badInclude network other.compact .notText))
  | _ => pure (.error (.invalidValue network "network" "non-object" "an object"))

/-- The networks of the members of a document, in the order of their names. -/
def resolveNetworks (origin base : String) :
    List (String × Value) → m (Except InputError Networks)
  | [] => pure (.ok [])
  | (name, entry) :: rest => do
    match ← resolveInclude readText base name entry with
    | .error e => pure (.error e)
    | .ok members =>
      match describe origin name members with
      | .error e => pure (.error e)
      | .ok description =>
        match ← resolveNetworks origin base rest with
        | .error e => pure (.error e)
        | .ok networks => pure (.ok ((name, description) :: networks))

/-- The networks of a text; included paths are taken relative to `base`. -/
def parseNetworks (base text : String) : m (Except InputError Networks) := do
  match parseObject "<input>" text with
  | .error e => pure (.error e)
  | .ok members => resolveNetworks readText "<input>" base members

/-- The networks of a file. -/
def loadNetworks (path : String) : m (Except InputError Networks) := do
  match ← readObject readText path with
  | .error e => pure (.error e)
  | .ok members => resolveNetworks readText path (Path.parent path) members

/-- One network of a file. -/
def loadNetwork (path name : String) : m (Except InputError Description) := do
  match ← loadNetworks readText path with
  | .error e => pure (.error e)
  | .ok networks =>
    match Dictionary.get? name networks with
    | some description => pure (.ok description)
    | none => pure (.error (.networkNotFound name))

end Loading

end NetworkCompiler
