import NetworkCompiler.FileTree.Path
import NetworkCompiler.Settings.Basic
import NetworkCompiler.Toml.Reader

/-!
# Reading settings

Settings are read from a TOML document. Unknown keys are ignored, a missing table keeps its
built-in values, and a table that is present must have its keys, `subnets` excepted. A record may
also be written as an array of its values, and a choice as a table whose only key is the choice.
-/

namespace NetworkCompiler

/-- Why settings cannot be loaded. -/
inductive SettingsError where
  | unreadable (path : String) (cause : FileFault)
  | malformed (path : String)
  | invalid (path : String) (fault : Settings.Fault)
  deriving DecidableEq, Repr

/-- The wording of a settings error; what exactly the reader objects to is left out. -/
def SettingsError.message : SettingsError → String
  | unreadable path cause => s!"failed to read settings file {path}: {cause.message}"
  | malformed path => s!"failed to parse settings file {path}"
  | invalid path fault => s!"settings file {path}: {fault.message}"

namespace Settings.Reader

open Toml (Value Entries)

/-- The entries of a table; a date counts as a table without known keys. -/
def entries? : Value → Option Entries
  | .table _ es => some es
  | .date => some []
  | _ => none

/-- A field of a record: the value under its key, or the value at its place. -/
def fields? (keys : List String) : Value → Option (List (Option Value))
  | .arr items => some ((List.range keys.length).map fun i => items[i]?)
  | .tables items => some ((List.range keys.length).map fun i =>
      (items.reverse.map (Value.table .header))[i]?)
  | v => (entries? v).map fun es => keys.map fun k => es.get? k

/-- A text. -/
def text? : Value → Option String
  | .str s => some s
  | _ => none

/-- A whole number from zero to `max`. -/
def natural? (max : Nat) : Value → Option Nat
  | .int n => if 0 ≤ n && n ≤ max then some n.toNat else none
  | _ => none

/-- The items of an array. -/
def items? : Value → Option (List Value)
  | .arr items => some items
  | .tables items => some (items.reverse.map (Value.table .header))
  | _ => none

/-- Whether a value holds nothing. -/
def isVoid : Value → Bool
  | .arr items => items.isEmpty
  | .table _ es => es.isEmpty
  | .tables items => items.isEmpty
  | _ => false

/-- A choice among words. -/
def choice? {α : Type} (ofWord? : String → Option α) : Value → Option α
  | .str s => ofWord? s
  | .table _ [(k, v)] => if isVoid v then ofWord? k else none
  | _ => none

/-- The policy of a word. -/
def policy? : String → Option AllocationPolicy
  | "network-wide" => some .networkWide
  | "per-subnet" => some .perSubnet
  | _ => none

/-- The firewall of a word. -/
def firewall? : String → Option FirewallKind
  | "iptables" => some .iptables
  | "firewalld" => some .firewalld
  | _ => none

/-- A field that must be there. -/
def required? {α : Type} (read : Value → Option α) : Option Value → Option α
  | some v => read v
  | none => none

/-- A field that may be missing. -/
def optional? {α : Type} (fallback : α) (read : Value → Option α) : Option Value → Option α
  | some v => read v
  | none => some fallback

/-- A record of one field that must be there. -/
def single? {α : Type} (key : String) (read : Value → Option α) (v : Value) : Option α :=
  match fields? [key] v with
  | some [field] => required? read field
  | _ => none

/-- The plan of a role. -/
def plan? (v : Value) : Option VlanPlan :=
  match fields? ["base", "vlan"] v with
  | some [base, vlan] => do
    let base ← required? text? base
    let base ← Ipv4.Address.ofText? base
    let vlan ← required? (natural? 65535) vlan
    pure ⟨base, vlan⟩
  | _ => none

/-- The plans by role. -/
def plans? : Value → Option (Dictionary Role VlanPlan)
  | .table _ es => do
    let plans ← es.mapM fun (k, v) => do
      let role ← Role.ofWord? k
      let plan ← plan? v
      pure (role, plan)
    pure (Dictionary.ofList plans)
  | _ => none

/-- The prefix length and the plans. -/
def subnets? (v : Value) : Option (Nat × Dictionary Role VlanPlan) :=
  match fields? ["prefix_len", "types"] v with
  | some [length, types] => do
    let length ← optional? defaultPrefixLength (natural? 255) length
    let types ← optional? defaultVlans plans? types
    pure (length, types)
  | _ => none

/-- The settings of a document. -/
def settings? (es : Entries) : Option Settings := do
  let d := Settings.default
  let policy ← optional? d.policy (single? "policy" (choice? policy?)) (es.get? "allocation")
  let (length, vlans) ← optional? (d.prefixLength, d.vlans) subnets? (es.get? "subnets")
  let firewall ← optional? d.firewall (single? "backend" (choice? firewall?))
    (es.get? "firewall")
  let ports (v : Value) := (items? v).bind fun vs => vs.mapM (natural? 65535)
  let defaultPorts ← optional? d.defaultPorts (single? "default_ports" ports) (es.get? "egress")
  let macPrefix ← optional? d.macPrefix (single? "prefix" text?) (es.get? "mac")
  let modeList (v : Value) := (items? v).bind fun vs => vs.mapM (choice? Mode.ofWord?)
  let modes ← optional? d.modes (single? "modes" modeList) (es.get? "output")
  pure ⟨policy, length, vlans, firewall, defaultPorts, macPrefix, modes⟩

end Settings.Reader

/-- The settings of the text of a file at `path`. -/
def Settings.read (path text : String) : Except SettingsError Settings :=
  match (Toml.read? text).bind Settings.Reader.settings? with
  | none => .error (.malformed path)
  | some s =>
    match s.fault? with
    | some fault => .error (.invalid path fault)
    | none => .ok s

end NetworkCompiler
