import NetworkCompiler.Proofs.Shell.Lines

/-!
# Trees of scripts

`readTree?` reads a script tree as the commands it is made of : sections and remarks say nothing
to a shell, a block is a branch, two blocks may be the halves of one branch, and a line is read by
`Command.ofLine?`, except for the line behind an announcement (`announces`), which is a command
for the machine and is taken as it stands.

`Reads` says that nodes are read as certain commands, whatever stands behind them. It is proved
for each form of nodes that scripts have, and nodes that follow each other are read one after the
other (`Reads.append`).
-/

namespace NetworkCompiler.Shell

open Script (Node Kind)
open Text.Chars (after? after?_append)

/-! ## Reading trees -/

/-- What a node says to a shell. -/
inductive Reading where
  | line (text : String)
  /-- The first half of a branch. -/
  | first (v : Variable) (body : List Command)
  /-- The second half of a branch. -/
  | second (body : List Command)
  /-- Commands that are read already. -/
  | whole (commands : List Command)

/-- Whether a command announces that the line behind it is run on the machine. -/
def announces : Command → Bool
  | .say text => (Text.after? "CONFIGURING: " text).isSome
  | _ => false

/-- Joins readings. The first argument tells whether the next line is taken as it stands. -/
def join? : Bool → List Reading → Option (List Command)
  | false, [] => some []
  | true, .line text :: ps => (join? false ps).map (.configure text :: ·)
  | false, .line text :: ps =>
    (Command.ofLine? text).bind fun c => (join? (announces c) ps).map (c :: ·)
  | false, .whole commands :: ps => (join? false ps).map (commands ++ ·)
  | false, .first v yes :: .second no :: ps => (join? false ps).map (.ifOne v yes no :: ·)
  | _, _ => none

/-- Reads the line that opens a branch : its variable, and the digit it is held against. -/
def test? (cs : List Char) : Option (Variable × List Char) :=
  (after? "if [ \"$".toList cs).bind fun cs =>
    (takeVariable? cs).bind fun v =>
      (after? "\" = ".toList v.2).map fun rest => (v.1, rest)

/-- Reads a block by its first line, its last line, and what stands between them. -/
def block? (first : String) (last : Option String) (body : List Command) : Option Reading :=
  if first = "else" then if last = some "fi" then some (.second body) else none
  else
    (test? first.toList).bind fun test =>
      if last = none ∧ test.2 = "1 ]; then".toList then some (.first test.1 body)
      else if last = some "fi" ∧ test.2 = "0 ]; then".toList then
        some (.whole [.whenZero test.1 body])
      else none

mutual

/-- Reads a node. -/
def node? : Node → Option Reading
  | ⟨.line, _, _, text, _, _⟩ => text.map .line
  | ⟨.comment, _, _, _, _, _⟩ => some (.whole [])
  | ⟨.blank, _, _, _, _, _⟩ => some (.whole [])
  | ⟨.block, _, _, first, last, children⟩ =>
    first.bind fun first => ((nodes? children).bind (join? false)).bind (block? first last)
  | ⟨.sect, _, _, _, _, children⟩ => ((nodes? children).bind (join? false)).map .whole
  | ⟨.document, _, _, _, _, children⟩ => ((nodes? children).bind (join? false)).map .whole

/-- Reads nodes. -/
def nodes? : List Node → Option (List Reading)
  | [] => some []
  | n :: ns => (node? n).bind fun p => (nodes? ns).map (p :: ·)

end

/-- Reads a script tree as the commands that a shell runs. -/
def readTree? (tree : Node) : Option (List Command) :=
  (node? tree).bind fun p => join? false [p]

/-! ## Nodes that are read as commands -/

theorem nodes?_append (ns ms : List Node) :
    nodes? (ns ++ ms) = (nodes? ns).bind fun ps => (nodes? ms).map (ps ++ ·) := by
  induction ns with
  | nil => cases h : nodes? ms <;> simp [nodes?, h]
  | cons n ns ih =>
    rw [List.cons_append, nodes?, nodes?, ih]
    cases node? n <;> cases nodes? ns <;> cases nodes? ms <;> rfl

theorem nodesOf_append (cs ds : List Command) :
    Command.nodesOf (cs ++ ds) = Command.nodesOf cs ++ Command.nodesOf ds := by
  induction cs with
  | nil => rfl
  | cons c cs ih => rw [List.cons_append, Command.nodesOf, Command.nodesOf, ih, List.append_assoc]

/-- Nodes that are read as certain commands, whatever stands behind them. -/
def Reads (ns : List Node) (cs : List Command) : Prop :=
  ∃ ps, nodes? ns = some ps ∧
    ∀ rest, join? false (ps ++ rest) = (join? false rest).map (cs ++ ·)

namespace Reads

variable {ns ms : List Node} {cs ds : List Command}

theorem nil : Reads [] [] :=
  ⟨[], rfl, fun rest => by simp⟩

/-- Nodes that follow each other are read one after the other. -/
theorem append (h : Reads ns cs) (h' : Reads ms ds) : Reads (ns ++ ms) (cs ++ ds) := by
  obtain ⟨ps, hps, hjoin⟩ := h
  obtain ⟨qs, hqs, hjoin'⟩ := h'
  refine ⟨ps ++ qs, by rw [nodes?_append, hps, hqs]; rfl, fun rest => ?_⟩
  rw [List.append_assoc, hjoin, hjoin', Option.map_map]
  congr 1
  funext es
  rw [List.append_assoc]
  rfl

/-- What stands below a section or in a branch is read as a whole. -/
theorem join (h : Reads ns cs) : (nodes? ns).bind (join? false) = some cs := by
  obtain ⟨ps, hps, hjoin⟩ := h
  have hall := hjoin []
  rw [List.append_nil] at hall
  rw [hps, Option.bind_some, hall, join?, Option.map_some, List.append_nil]

/-- A single node that says something as a whole. -/
theorem of_whole {n : Node} (h : node? n = some (.whole cs)) : Reads [n] cs :=
  ⟨[.whole cs], by rw [nodes?, h]; rfl, fun rest => by rw [List.singleton_append, join?]⟩

theorem comment (text : String) : Reads [.comment text] [] :=
  of_whole rfl

theorem sect (h : Reads ns cs) (name : String) (attributes : List (String × String)) :
    Reads [.sect name attributes ns] cs :=
  of_whole (by rw [Node.sect, node?, h.join, Option.map_some])

/-- A plain command is read from its line. -/
theorem plain {c : Command} (h : c.IsPlain) (hannounces : announces c = false) :
    Reads c.nodes [c] := by
  obtain ⟨line, hnodes, hline⟩ := Command.ofLine?_of_isPlain h
  rw [hnodes]
  refine ⟨[.line line], rfl, fun rest => ?_⟩
  rw [List.singleton_append, join?, hline, Option.bind_some, hannounces]
  rfl

/-- A plain command in front of commands. -/
theorem cons {c : Command} (h : c.IsPlain) (hannounces : announces c = false)
    (hds : Reads (Command.nodesOf ds) ds) : Reads (Command.nodesOf (c :: ds)) (c :: ds) :=
  (plain h hannounces).append hds

/-- The line behind an announcement is run on the machine, whatever it is. -/
theorem configure {c : Command} (h : c.IsPlain) (hannounces : announces c = true)
    (command : String) :
    Reads (Command.nodesOf [c, .configure command]) [c, .configure command] := by
  obtain ⟨line, hnodes, hline⟩ := Command.ofLine?_of_isPlain h
  have hall : Command.nodesOf [c, .configure command] = [.line line, .line command] := by
    rw [Command.nodesOf, hnodes]
    rfl
  rw [hall]
  refine ⟨[.line line, .line command], rfl, fun rest => ?_⟩
  rw [List.cons_append, join?, hline, Option.bind_some, hannounces, List.singleton_append,
    join?, Option.map_map]
  rfl

/-! ### Branches -/

theorem test?_testText {v : Variable} (hv : v.IsLegal) (digit : Nat) :
    test? (Command.testText v digit).toList =
      some (v, (toString digit).toList ++ " ]; then".toList) := by
  have htext : (Command.testText v digit).toList = "if [ \"$".toList ++ (v.name.toList ++
      ("\" = ".toList ++ ((toString digit).toList ++ " ]; then".toList))) := by
    simp [Command.testText]
  have hvariable : takeVariable? (v.name.toList ++ ("\" = ".toList ++ ((toString digit).toList ++
      " ]; then".toList))) = some (v, "\" = ".toList ++ ((toString digit).toList ++
        " ]; then".toList)) :=
    takeVariable?_append hv (by decide) _
  rw [htext, test?, after?_append, Option.bind_some, hvariable, Option.bind_some, after?_append,
    Option.map_some]

theorem testText_ne_else (v : Variable) (digit : Nat) : Command.testText v digit ≠ "else" := by
  intro h
  have hlist := congrArg String.toList h
  simp [Command.testText] at hlist

theorem whenZero {v : Variable} (hv : v.IsLegal) (h : Reads (Command.nodesOf cs) cs) :
    Reads (Command.nodes (.whenZero v cs)) [.whenZero v cs] := by
  refine of_whole (n := .block (Command.testText v 0) "fi" (Command.nodesOf cs)) ?_
  rw [Node.block, node?, Option.bind_some, h.join, Option.bind_some, block?,
    if_neg (testText_ne_else v 0), test?_testText hv, Option.bind_some, if_neg (by simp)]
  exact if_pos ⟨rfl, rfl⟩

theorem ifOne {v : Variable} (hv : v.IsLegal) (h : Reads (Command.nodesOf cs) cs)
    (h' : Reads (Command.nodesOf ds) ds) :
    Reads (Command.nodes (.ifOne v cs ds)) [.ifOne v cs ds] := by
  have hfirst : node? (Command.openBlock (Command.testText v 1) (Command.nodesOf cs)) =
      some (.first v cs) := by
    rw [Command.openBlock, node?, Option.bind_some, h.join, Option.bind_some, block?,
      if_neg (testText_ne_else v 1), test?_testText hv, Option.bind_some]
    exact if_pos ⟨rfl, rfl⟩
  have hsecond : node? (.block "else" "fi" (Command.nodesOf ds)) = some (.second ds) := by
    rw [Node.block, node?, Option.bind_some, h'.join, Option.bind_some, block?, if_pos rfl,
      if_pos rfl]
  refine ⟨[.first v cs, .second ds], ?_, fun rest => ?_⟩
  · rw [Command.nodes, nodes?, hfirst, Option.bind_some, nodes?, hsecond]
    rfl
  · rw [List.cons_append, List.singleton_append, join?]
    rfl

end Reads

end NetworkCompiler.Shell
