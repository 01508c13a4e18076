import NetworkCompiler.ConfigUnit.Script
import NetworkCompiler.Provision.Profile

/-!
# Scripts of a network

Every managed machine of a compiled network gets a script for each mode. `compileAll` writes
them, machine by machine, and `compileNetwork` starts from a description.
-/

namespace NetworkCompiler

open Provision (Context checkedUnits isManaged)

/-- A script of a machine. -/
structure MachineScript where
  machine : String
  mode : Mode
  /-- How many units it has. -/
  units : Nat
  text : String
  deriving DecidableEq, Repr

/-- The name of a script's file. -/
def MachineScript.fileName (s : MachineScript) : String :=
  s!"{s.machine}.{s.mode}.sh"

/-- The script of a machine in one mode. -/
def scriptFor (machine : String) (units : List ConfigUnit) (mode : Mode) :
    Except CompileError MachineScript := do
  let tree ← ConfigUnit.scriptOf machine units mode
  pure ⟨machine, mode, units.length, tree.render⟩

/-- The scripts of a machine. -/
def compileMachine (c : Context) (modes : List Mode) : Except Failure (List MachineScript) := do
  let units ← checkedUnits c
  modes.mapM fun mode => ofCompile (scriptFor c.label units mode)

/-- The contexts of the machines that get scripts, in order. -/
def managedContexts (n : CompiledNetwork) (secrets : Secrets) : List Context :=
  (n.graph.entries.filter fun e => isManaged e.2).map fun (id, m) => ⟨n, id, m, secrets⟩

/-- The places of the machines that get scripts. -/
def CompiledNetwork.managed (n : CompiledNetwork) : List MachineId :=
  (n.graph.entries.filter fun e => isManaged e.2).map (·.1)

/-- The scripts of a machine, reported. -/
def compileReported (modes : List Mode) (c : Context) : Traced Failure (List MachineScript) := do
  let scripts ← Traced.ofExcept (compileMachine c modes)
  Traced.report (.compiled c.label ((scripts.head?.map (·.units)).getD 0))
  pure scripts

/-- The scripts of all managed machines, or of the one named. -/
def compileAll (n : CompiledNetwork) (modes : List Mode) (secrets : Secrets)
    (only : Option String) : Traced Failure (List MachineScript) := do
  let chosen := (managedContexts n secrets).filter fun c => only.all (· = c.label)
  let scripts ← chosen.mapM (compileReported modes)
  pure scripts.flatten

/-- The scripts of a described network in the modes of its settings. -/
def compileNetwork (name : String) (d : Description) (s : Settings) (secrets : Secrets) :
    Traced Failure (List MachineScript) := do
  let n ← CompiledNetwork.ofDescription name d s
  compileAll n s.modes secrets none

end NetworkCompiler
