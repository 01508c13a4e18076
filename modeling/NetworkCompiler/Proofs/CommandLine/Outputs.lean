import NetworkCompiler.Proofs.CommandLine.Sessions
import NetworkCompiler.Proofs.Firewall.Plans
import NetworkCompiler.Proofs.Network.Names

/-!
# Files of a compilation

Which files a compilation writes, and whether they are kept apart. The scripts are known before
anything is written (`scriptsIn`), and so is the place of each (`outputPlace`). A run leaves every
other file alone, and if it succeeds it has written them all (`leaves_compile`). A script goes
beneath the directory for output, to a file of its own, if its network has a plain name; what any
other name does is read off where the directory of the network is (`files_of_compile`).
-/

namespace NetworkCompiler.CommandLine

open Session (platform)

variable {a : CompileArguments} {settings : Settings} {secrets : Secrets} {modes : List Mode}
  {color : Bool} {s : Session} {cwd : List String}

/-! ## Scripts and their places -/

/-- What a compilation loads in a session. -/
def inputsIn (a : CompileArguments) (s : Session) :
    Except CommandError (Settings × Secrets × Networks) := do
  let settings ← (loadSettings platform a.settings s).1
  let secrets ← (loadSecrets platform a.secrets s).1
  let networks ← (selectNetworks platform a.input a.network s).1
  pure (settings, secrets, networks)

/-- The scripts of a network that can be compiled, each with the network's name. -/
def scriptsOf (a : CompileArguments) (settings : Settings) (secrets : Secrets)
    (network : String × Description) : List (String × MachineScript) :=
  let modes := if a.modes.isEmpty then settings.modes else a.modes
  match networkScripts a settings secrets modes network.1 network.2 with
  | .ok scripts => scripts.map fun sc => (network.1, sc)
  | .error _ => []

/-- The scripts that a compilation is to write in a session, each with the name of its
network. -/
def scriptsIn (a : CompileArguments) (s : Session) : List (String × MachineScript) :=
  match inputsIn a s with
  | .ok (settings, secrets, networks) => networks.flatMap (scriptsOf a settings secrets)
  | .error _ => []

/-- The place of the directory that a network's scripts go to. -/
def networkPlace (cwd : List String) (out network : String) : List String :=
  placeOf cwd (Path.join out network)

/-- The place of a script's file. -/
def outputPlace (cwd : List String) (out : String) (x : String × MachineScript) : List String :=
  placeOf cwd (scriptPath (Path.join out x.1) x.2)

/-- The files that a compilation is to write. -/
def outputFiles (cwd : List String) (out : String) (scripts : List (String × MachineScript)) :
    List (List String × String) :=
  scripts.map fun x => (outputPlace cwd out x, x.2.text)

/-- Whether a place is in a directory, however deep. -/
def IsBeneath (directory place : List String) : Prop :=
  directory <+: place ∧ directory ≠ place

instance (directory place : List String) : Decidable (IsBeneath directory place) :=
  inferInstanceAs (Decidable (_ ∧ _))

/-! ## Running -/

theorem writes_writeScripts (name : String) (scripts : List MachineScript) :
    Writes cwd (outputFiles cwd a.out (scripts.map fun sc => (name, sc)))
      (writeScripts platform name (Path.join a.out name) scripts) := by
  have hfiles : outputFiles cwd a.out (scripts.map fun sc => (name, sc)) =
      scripts.flatMap fun sc => [(placeOf cwd (scriptPath (Path.join a.out name) sc), sc.text)] := by
    rw [outputFiles, List.map_map, List.map_eq_flatMap]
    rfl
  rw [hfiles]
  exact Writes.forM fun sc _ => writes_writeScript _ _ _

theorem writes_compileOne (network : String × Description) :
    Writes cwd (outputFiles cwd a.out (scriptsOf a settings secrets network))
      (compileOne platform a settings secrets
        (if a.modes.isEmpty then settings.modes else a.modes) network) := by
  unfold compileOne scriptsOf
  dsimp only
  cases networkScripts a settings secrets (if a.modes.isEmpty then settings.modes else a.modes)
      network.1 network.2 with
  | error e => exact Writes.throw e
  | ok scripts =>
    change Writes _ _ (if scripts.isEmpty = true then _ else _)
    by_cases hempty : scripts.isEmpty = true
    · rw [if_pos hempty, List.isEmpty_iff.mp hempty]
      exact .of_readsOnly (ReadsOnly.pure _)
    · rw [if_neg hempty, ← List.append_nil (outputFiles _ _ _)]
      exact (Writes.of_readsOnly (readsOnly_guardScripts _ _ _)).andThen fun _ =>
        (writes_writeScripts _ _).andThen fun _ => .of_readsOnly (ReadsOnly.pure _)

theorem writes_printLine (text : String) : Writes cwd [] (platform.printLine text) :=
  .of_keeps fun _ => ⟨rfl, rfl⟩

/-- A compilation in a session without links leaves all files but its own as they are, and if it
succeeds those are written. -/
theorem leaves_compile (hs : s.tree.IsLinkFree) :
    Leaves (outputFiles s.directory a.out (scriptsIn a s)) s
      (Session.run color (.compile a) s) := by
  have hnone : ∀ e : CommandError, Leaves (α := Unit) [] s (.error e, s) := fun e =>
    ⟨rfl, fun _ => .inl rfl, nofun⟩
  change Leaves _ s (compile platform color a s)
  unfold compile scriptsIn inputsIn
  rw [(readsOnly_loadSettings _).run_andThen]
  cases (loadSettings platform a.settings s).1 with
  | error e => exact hnone e
  | ok settings =>
    dsimp only
    rw [(readsOnly_loadSecrets _).run_andThen]
    cases (loadSecrets platform a.secrets s).1 with
    | error e => exact hnone e
    | ok secrets =>
      dsimp only
      rw [(readsOnly_selectNetworks _ _).run_andThen]
      cases (selectNetworks platform a.input a.network s).1 with
      | error e => exact hnone e
      | ok networks =>
        have hfiles : outputFiles s.directory a.out
            (networks.flatMap (scriptsOf a settings secrets)) =
              networks.flatMap fun network =>
                outputFiles s.directory a.out (scriptsOf a settings secrets network) :=
          List.map_flatMap
        change Leaves (outputFiles s.directory a.out (networks.flatMap _)) s _
        rw [hfiles, ← List.append_nil (List.flatMap _ _)]
        refine (Writes.of_readsOnly (readsOnly_guardOutput _ _)).andThen (fun _ =>
          (Writes.mapM fun network _ => writes_compileOne network).andThen fun written => ?_) s rfl hs
        split
        · exact .throw _
        · split <;> exact writes_printLine _

/-! ## Places -/

theorem machine_of_compileMachine {c : Provision.Context} {scripts : List MachineScript}
    (h : compileMachine c modes = .ok scripts) : ∀ sc ∈ scripts, sc.machine = c.label := by
  obtain ⟨units, -, h⟩ := bind_eq_ok.mp h
  intro sc hsc
  obtain ⟨mode, -, hscript⟩ := exists_of_mem_right (mapM_eq_ok.mp h) hsc
  obtain ⟨tree, -, hscript⟩ := bind_eq_ok.mp (mapError_eq_ok.mp hscript)
  cases hscript
  rfl

theorem isLabel_of_networkScripts {name : String} {d : Description} {scripts : List MachineScript}
    (h : networkScripts a settings secrets modes name d = .ok scripts) :
    ∀ sc ∈ scripts, isLabel sc.machine = true := by
  obtain ⟨n, hn, h⟩ := Traced.result_bind_eq_ok.mp (mapError_eq_ok.mp h)
  obtain ⟨hgraph, -⟩ := CompiledNetwork.ofDescription_eq_ok hn
  obtain ⟨byMachine, hbyMachine, h⟩ := Traced.result_bind_eq_ok.mp h
  cases h
  intro sc hsc
  obtain ⟨l, hl, hmem⟩ := List.mem_flatten.mp hsc
  obtain ⟨c, hc, hcompile⟩ := exists_of_mem_right (Traced.result_mapM_eq_ok.mp hbyMachine) hl
  obtain ⟨l', hcompile, h⟩ := Traced.result_bind_eq_ok.mp hcompile
  obtain ⟨-, -, h⟩ := Traced.result_bind_eq_ok.mp h
  cases h
  rw [machine_of_compileMachine hcompile sc hmem]
  obtain ⟨e, he, rfl⟩ := List.mem_map.mp (List.mem_of_mem_filter hc)
  have hmachine : n.graph.machine? e.1 = some e.2 :=
    n.graph.mem_entries.mp (List.mem_of_mem_filter he)
  exact Graph.isLabel_of_mem hgraph (List.mem_of_getElem? hmachine)

/-- The machine of every script has a label. -/
theorem isLabel_of_mem_scriptsIn {x : String × MachineScript} (hx : x ∈ scriptsIn a s) :
    isLabel x.2.machine = true := by
  unfold scriptsIn at hx
  split at hx
  · obtain ⟨network, -, hx⟩ := List.mem_flatMap.mp hx
    unfold scriptsOf at hx
    dsimp only at hx
    split at hx
    · next scripts hscripts =>
      obtain ⟨sc, hsc, rfl⟩ := List.mem_map.mp hx
      exact isLabel_of_networkScripts hscripts sc hsc
    · cases hx
  · cases hx

section Places

variable {x y : String × MachineScript} {out : String}

/-- A script is put into the directory of its network. -/
theorem outputPlace_eq (hx : isLabel x.2.machine = true) :
    outputPlace cwd out x = networkPlace cwd out x.1 ++ [x.2.fileName] :=
  placeOf_join_of_isPlainName _ _ (isPlainName_fileName hx)

theorem outputPlace_inj (hx : isLabel x.2.machine = true) (hy : isLabel y.2.machine = true) :
    outputPlace cwd out x = outputPlace cwd out y ↔
      networkPlace cwd out x.1 = networkPlace cwd out y.1 ∧
        x.2.machine = y.2.machine ∧ x.2.mode = y.2.mode := by
  rw [outputPlace_eq hx, outputPlace_eq hy, ← fileName_inj hx hy, List.append_singleton_inj]

theorem isBeneath_outputPlace (hx : isLabel x.2.machine = true) :
    IsBeneath (placeOf cwd out) (outputPlace cwd out x) ↔
      placeOf cwd out <+: networkPlace cwd out x.1 := by
  rw [outputPlace_eq hx, IsBeneath, List.prefix_concat_iff]
  refine ⟨fun ⟨habove, hne⟩ => habove.resolve_left hne, fun habove => ⟨.inr habove, fun heq => ?_⟩⟩
  have hlength := habove.length_le
  rw [heq, List.length_append, List.length_singleton] at hlength
  omega

theorem networkPlace_of_isPlainName {network : String} (h : IsPlainName network) :
    networkPlace cwd out network = placeOf cwd out ++ [network] :=
  placeOf_join_of_isPlainName cwd out h

end Places

/-! ## Apart -/

/-- A compilation writes its scripts and nothing else. Two scripts share a file if and only if they
are for one machine in one mode and the directories of their networks are the same; a script is
beneath the directory for output if and only if the directory of its network is there. So if every
network has a plain name, every script has a file of its own beneath that directory. -/
theorem files_of_compile (color : Bool) (a : CompileArguments) (s : Session)
    (hs : s.tree.IsLinkFree) :
    let scripts := scriptsIn a s
    let out := placeOf s.directory a.out
    let network := networkPlace s.directory a.out
    let file := outputPlace s.directory a.out
    Leaves (outputFiles s.directory a.out scripts) s (Session.run color (.compile a) s) ∧
    (∀ x ∈ scripts, ∀ y ∈ scripts, file x = file y ↔
      network x.1 = network y.1 ∧ x.2.machine = y.2.machine ∧ x.2.mode = y.2.mode) ∧
    (∀ x ∈ scripts, IsBeneath out (file x) ↔ out <+: network x.1) ∧
    ((∀ x ∈ scripts, IsPlainName x.1) →
      (∀ x ∈ scripts, file x = out ++ [x.1, x.2.fileName] ∧ IsBeneath out (file x)) ∧
      ∀ x ∈ scripts, ∀ y ∈ scripts, file x = file y ↔
        x.1 = y.1 ∧ x.2.machine = y.2.machine ∧ x.2.mode = y.2.mode) := by
  intro scripts out network file
  have hlabel : ∀ x ∈ scripts, isLabel x.2.machine = true := fun x => isLabel_of_mem_scriptsIn
  refine ⟨leaves_compile hs, fun x hx y hy => outputPlace_inj (hlabel x hx) (hlabel y hy),
    fun x hx => isBeneath_outputPlace (hlabel x hx), fun hplain => ?_⟩
  have hnetwork : ∀ x ∈ scripts, network x.1 = out ++ [x.1] := fun x hx =>
    networkPlace_of_isPlainName (hplain x hx)
  refine ⟨fun x hx => ⟨?_, ?_⟩, fun x hx y hy => ?_⟩
  · have hfile : file x = network x.1 ++ [x.2.fileName] := outputPlace_eq (hlabel x hx)
    rw [hfile, hnetwork x hx, List.append_assoc, List.singleton_append]
  · have habove : out <+: network x.1 := hnetwork x hx ▸ List.prefix_append out [x.1]
    exact (isBeneath_outputPlace (hlabel x hx)).mpr habove
  · rw [outputPlace_inj (hlabel x hx) (hlabel y hy)]
    change network x.1 = network y.1 ∧ _ ↔ _
    rw [hnetwork x hx, hnetwork y hy, List.append_cancel_left_eq, List.singleton_inj]

section Examples

/-- A working directory that holds a document. -/
def documentSession (document : String) : Session where
  tree := .dir [("work", .dir [("net.json", .file document.toUTF8 false)])]
  directory := ["work"]

/-- Compiles one server of the networks in the document. -/
def documentArguments : CompileArguments where
  input := "net.json"
  out := "out"
  network := none
  machine := some "web"
  modes := [.audit]
  settings := none
  secrets := none
  format := .text

theorem isLinkFree_documentSession (document : String) :
    (documentSession document).tree.IsLinkFree := by
  refine Tree.isLinkFree_dir (List.forall_mem_singleton.mpr ?_)
  refine Tree.isLinkFree_dir (List.forall_mem_singleton.mpr ?_)
  exact Tree.isLinkFree_file _ _

theorem readText_documentSession (document : String) :
    platform.readText "net.json" (documentSession document) =
      (.ok document, documentSession document) := by
  have hlocate : (documentSession document).tree.locate ["work"] true "net.json" =
      .ok (.present ["work", "net.json"] (.file document.toUTF8 false)) := rfl
  have hbytes : platform.readBytes "net.json" (documentSession document) =
      (.ok document.toUTF8, documentSession document) := by
    change (Tree.readBytes _ ["work"] "net.json", _) = _
    rw [Tree.readBytes, hlocate]
  have hdecode : Text.decode? document.toUTF8 = some document := by
    unfold Text.decode? String.fromUTF8?
    rw [String.toUTF8_eq_toByteArray, dif_pos document.isValidUTF8]
    rfl
  unfold Platform.readText
  rw [run_bind, hbytes]
  dsimp only
  rw [hdecode]
  rfl

/-- The scripts of a session whose document can be read. -/
theorem scriptsIn_of_readText {document : String}
    (hread : platform.readText "net.json" s = (.ok document, s)) :
    scriptsIn documentArguments s = match parseObject "net.json" document with
      | .ok members =>
        match (resolveNetworks platform.readText "net.json" "" members s).1 with
        | .ok networks => networks.flatMap (scriptsOf documentArguments .default .builtin)
        | .error _ => []
      | .error _ => [] := by
  have hobject : readObject platform.readText "net.json" s =
      (parseObject "net.json" document, s) := by
    unfold readObject
    rw [run_bind, hread]
    rfl
  have hselect : (selectNetworks platform "net.json" none s).1 =
      (loadNetworks platform.readText "net.json" s).1.mapError (.input "net.json") := by
    unfold selectNetworks
    rw [run_andThen, run_orFail]
    cases (loadNetworks platform.readText "net.json" s).1 <;> rfl
  have hinputs : inputsIn documentArguments s = (do
      let networks ← (selectNetworks platform "net.json" none s).1
      pure (Settings.default, Secrets.builtin, networks)) := rfl
  rw [scriptsIn, hinputs, hselect, loadNetworks, run_bind, hobject]
  cases parseObject "net.json" document with
  | error e => rfl
  | ok members =>
    have hparent : Path.parent "net.json" = "" := rfl
    dsimp only
    rw [hparent]
    cases (resolveNetworks platform.readText "net.json" "" members s).1 <;> rfl

/-- A network with a router and a server, under a name that leads out of the directory for
output. -/
def parentDocument : String :=
  "\x7b\"..\":\x7b\"servers\":\x7b\"router\":\x7b\"types\":[\"router\"]\x7d," ++
    "\"web\":\x7b\"types\":[\"dedicated\"],\"mac\":\"02:00:00:00:00:01\"\x7d\x7d\x7d\x7d"

theorem map_scriptsIn_parentDocument :
    (scriptsIn documentArguments (documentSession parentDocument)).map
      (outputPlace ["work"] "out") = [["work", "web.audit.sh"]] := by
  rw [scriptsIn_of_readText (readText_documentSession _)]
  decide +kernel

theorem files_of_compile_server :
    let a := documentArguments
    let s := documentSession parentDocument
    let file := outputPlace s.directory a.out
    s.tree.IsLinkFree ∧ (scriptsIn a s).map file = [["work", "web.audit.sh"]] ∧
      Leaves (outputFiles s.directory a.out (scriptsIn a s)) s (Session.run true (.compile a) s) ∧
      ∀ x ∈ scriptsIn a s, IsBeneath (placeOf s.directory a.out) (file x) ↔
        placeOf s.directory a.out <+: networkPlace s.directory a.out x.1 := by
  intro a s file
  have hlinks : s.tree.IsLinkFree := isLinkFree_documentSession _
  obtain ⟨hleaves, -, hbeneath, -⟩ := files_of_compile true a s hlinks
  exact ⟨hlinks, map_scriptsIn_parentDocument, hleaves, hbeneath⟩

/-- The script of the server leaves the directory for output. -/
theorem files_of_compile_parent :
    let a := documentArguments
    let s := documentSession parentDocument
    ¬ ∀ x ∈ scriptsIn a s,
      IsBeneath (placeOf s.directory a.out) (outputPlace s.directory a.out x) := by
  intro a s hbeneath
  have hplaces : (scriptsIn a s).map (outputPlace ["work"] "out") = [["work", "web.audit.sh"]] :=
    map_scriptsIn_parentDocument
  obtain ⟨x, rest, hscripts, hx, -⟩ := List.map_eq_cons_iff.mp hplaces
  have hmem : x ∈ scriptsIn a s := hscripts ▸ List.mem_cons_self
  have hscript : IsBeneath (placeOf ["work"] "out") (outputPlace ["work"] "out" x) :=
    hbeneath x hmem
  rw [hx] at hscript
  revert hscript
  decide +kernel

end Examples

end NetworkCompiler.CommandLine
