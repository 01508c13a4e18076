import NetworkCompiler.Script.Printer
import NetworkCompiler.Text.Split

/-!
# Differences of two scripts

`diff` compares two script trees section by section. Sections are paired by name, so a section
that only moved is not reported; the lines outside sections are compared as multisets of trimmed
lines. Paths read `script.<name>`, and a name that occurs more than once gets a number in square
brackets. Entries come in the order in which the names first appear, the left tree first.
-/

namespace NetworkCompiler.Script

/-- The attributes of a section before and after. -/
structure MarkerChange where
  before : String
  after : String
  deriving DecidableEq, Repr

/-- Why two trees cannot be paired. -/
inductive Mismatch where
  /-- The two nodes are of different kinds. -/
  | kinds (left right : Kind)
  /-- A repeated section occurs in different numbers. -/
  | counts (name : String) (left right : Nat)
  deriving DecidableEq, Repr

/-- The wording of a mismatch. -/
def Mismatch.message : Mismatch → String
  | kinds l r => s!"{l.title} on the left, {r.title} on the right"
  | counts name l r => s!"'{name}' occurs {l} times on the left and {r} on the right"

/-- How one section differs. -/
inductive Difference where
  /-- Nothing differs at or below the section. -/
  | unchanged
  /-- Present on both sides with another marker or other lines. -/
  | changed (marker : Option MarkerChange) (removed added : List String)
  /-- Present on the left only. -/
  | removed (marker : String) (body : List String)
  /-- Present on the right only. -/
  | added (marker : String) (body : List String)
  /-- The two sides cannot be paired. -/
  | structural (cause : Mismatch)
  deriving DecidableEq, Repr

/-- A difference and the path of the section that has it. -/
structure DiffEntry where
  path : String
  difference : Difference
  deriving DecidableEq, Repr

/-- What a comparison reports and what it skips. -/
structure DiffOptions where
  /-- Also report sections without differences. -/
  includeIdentical : Bool := false
  /-- The names of the sections that are skipped with everything inside. -/
  ignored : List String := []
  deriving DecidableEq, Repr

/-- The lines of `ls` that `available` does not hold; an available line cancels one occurrence. -/
def unmatched (available : List String) : List String → List String
  | [] => []
  | l :: ls =>
    if l ∈ available then unmatched (available.erase l) ls else l :: unmatched available ls

/-- Lines without their margins, empty ones dropped. -/
def trimmedLines (ls : List String) : List String :=
  (ls.map Text.trim).filter fun l => !l.isEmpty

namespace Node

/-- The attributes of a section as text. -/
def marker (n : Node) : String :=
  markerOf n.attributes

/-- Whether a node contributes lines to the body it stands in. -/
def isBody (n : Node) : Bool :=
  n.kind ≠ .sect && n.kind ≠ .blank

/-- The trimmed lines of a node's own body: no nested sections, no blank lines. The interpreter
line of a document counts as it is written. -/
def bodyLines (n : Node) : List String :=
  (if n.kind = .document then n.text.toList else []) ++
    (n.children.filter isBody).flatMap fun c => trimmedLines (c.lines 0)

/-- The trimmed lines between a section's markers, nested sections included. -/
def sectionLines (n : Node) : List String :=
  n.children.flatMap fun c => trimmedLines (c.lines 0)

end Node

/-- Keeps the first occurrence of each text. -/
def distinct (l : List String) : List String :=
  l.foldl (fun seen s => if s ∈ seen then seen else seen ++ [s]) []

/-- The names of the sections below two nodes, in order of first appearance, left first. -/
def sectionNames (l r : Node) : List String :=
  distinct ((l.sections ++ r.sections).map (·.name))

/-- The path of the section with number `i` (from 0) of `count` that share a name. -/
def childPath (path name : String) (count i : Nat) : String :=
  if count = 1 then s!"{path}.{name}" else s!"{path}.{name}[{i + 1}]"

/-- How the two nodes themselves differ, their sections aside. -/
def ownDifference (path : String) (l r : Node) : List DiffEntry :=
  let marker := if l.marker = r.marker then none else some ⟨l.marker, r.marker⟩
  let removed := unmatched r.bodyLines l.bodyLines
  let added := unmatched l.bodyLines r.bodyLines
  if marker.isSome || !removed.isEmpty || !added.isEmpty then
    [⟨path, .changed marker removed added⟩]
  else []

/-- The entry of a repeated section that occurs in different numbers. -/
def countMismatch (path name : String) (l r : Nat) : List DiffEntry :=
  if 1 < max l r && l ≠ r then [⟨s!"{path}.{name}", .structural (.counts name l r)⟩] else []

theorem Node.sizeOf_lt_of_mem_childrenNamed {n c : Node} {name : String}
    (h : c ∈ n.childrenNamed name) : sizeOf c < sizeOf n := by
  have hc : c ∈ n.children := by
    simp only [Node.childrenNamed, Node.sections, List.mem_filter] at h
    exact h.1.1
  have := List.sizeOf_lt_of_mem hc
  cases n
  simp only [Node.mk.sizeOf_spec]
  simp only at this
  omega

/-- Compares two nodes that stand at `path`. -/
def compareNodes (opts : DiffOptions) (path : String) (l r : Node) : List DiffEntry :=
  if l.kind ≠ r.kind then [⟨path, .structural (.kinds l.kind r.kind)⟩]
  else
    let names := (sectionNames l r).filter fun name => name ∉ opts.ignored
    let nested := names.flatMap fun name =>
      let ls := (l.childrenNamed name).attach
      let rs := r.childrenNamed name
      let count := max ls.length rs.length
      countMismatch path name ls.length rs.length ++
        (List.range count).flatMap fun i =>
          let path := childPath path name count i
          match ls[i]?, rs[i]? with
          | some ⟨lc, _⟩, some rc => compareNodes opts path lc rc
          | some ⟨lc, _⟩, none => [⟨path, .removed lc.marker lc.sectionLines⟩]
          | none, some rc => [⟨path, .added rc.marker rc.sectionLines⟩]
          | none, none => []
    let entries := ownDifference path l r ++ nested
    if opts.includeIdentical && l.kind = .sect && entries.isEmpty then [⟨path, .unchanged⟩]
    else entries
termination_by l
decreasing_by exact Node.sizeOf_lt_of_mem_childrenNamed (by assumption)

/-- The differences of two scripts. -/
def diff (opts : DiffOptions) (left right : Node) : List DiffEntry :=
  compareNodes opts "script" left right

/-- The name of the section an entry is about: the last part of its path, without a number. -/
def DiffEntry.sectionName (e : DiffEntry) : String :=
  let last := ((Text.cutAtLast? '.' e.path).map (·.2)).getD e.path
  ((Text.cutAt? '[' last).map (·.1)).getD last

end NetworkCompiler.Script
