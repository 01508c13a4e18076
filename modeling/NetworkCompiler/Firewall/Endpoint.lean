import NetworkCompiler.Digest.Checksums
import NetworkCompiler.Network.Graph

/-!
# Endpoints and chains of firewall rules

Rules name their ends as text. `Target.ofText` says what a text stands for in a graph: anywhere, a
machine, a network, a host outside, or nothing. An `Endpoint` is an end after machines have been
replaced by their addresses.

Every machine has three chains of rules, named after its label. Chain names are made of letters,
digits and an underscore, so `encodeLabel` writes every other byte of a label, and the letter
`x` itself, as `x` and two hexadecimal digits.
-/

namespace NetworkCompiler

open Ipv4 (Address Block)

/-! ## Endpoints -/

/-- An end of a resolved rule. -/
inductive Endpoint where
  | any
  | net (block : Block)
  /-- The name of a host, left to the firewall to look up. -/
  | host (name : String)
  deriving DecidableEq

/-- The end as it is written in a rule. -/
def Endpoint.text : Endpoint → String
  | any => "0.0.0.0/0"
  | net block => block.text
  | host name => name

/-- What the text of a target stands for. -/
inductive Target where
  | any
  | net (block : Block)
  | host (name : String)
  | machine (id : MachineId)
  | unknown
  deriving DecidableEq

/-- What a text stands for in a graph. A label goes before everything but the mark for anywhere;
a text with a dot that is neither a label nor a network is the name of a host. -/
def Target.ofText (g : Graph) (s : String) : Target :=
  if s = anywhere then .any
  else match g.idOf? s with
    | some id => .machine id
    | none =>
      match Address.ofText? s, Block.ofText? s with
      | some a, _ => .net (Block.single a)
      | none, some block => .net block
      | none, none => if '.' ∈ s.toList then .host s else .unknown

/-! ## Chains -/

/-- Whether a byte of a label stays as it is in a chain name. -/
def isPlainLabelByte (b : UInt8) : Bool :=
  let c := Char.ofNat b.toNat
  b < 128 && c.isAlphanum && c ≠ 'x'

/-- A byte of a label in a chain name. -/
def encodeLabelByte (b : UInt8) : List Char :=
  if isPlainLabelByte b then [Char.ofNat b.toNat] else 'x' :: (Digest.hex [b]).toList

/-- A label in letters and digits. -/
def encodeLabel (label : String) : String :=
  String.ofList (label.toUTF8.toList.flatMap encodeLabelByte)

/-- The chains of one machine. -/
structure ChainNames where
  ingress : String
  forward : String
  egress : String
  deriving DecidableEq, Repr

namespace ChainNames

/-- The chains of a label. -/
def ofLabel (label : String) : ChainNames :=
  let base := encodeLabel label
  ⟨base ++ "_ingress", base ++ "_fwd", base ++ "_egress"⟩

/-- The three names. -/
def all (c : ChainNames) : List String :=
  [c.ingress, c.forward, c.egress]

end ChainNames

end NetworkCompiler
