import Mathlib.Tactic.Common
import NetworkCompiler.Firewall.Ruleset

/-!
# Packets in tables

What a loaded table does to a packet (`Table.verdict`) : the rules of a chain are tried in their
order, and the first that applies decides. A jump goes on in another chain and comes back behind
the jump if nothing was decided there; at the end of a built-in chain its policy decides. What the
name of a host stands for is left open : `hosts` says which addresses have it.

`Accepting` rules let a packet through or leave it alone. Their order does not matter : they let it
through if one of them does (`Accepting.walk_eq_some_iff`).
-/

namespace NetworkCompiler

open Ipv4 (Address)

/-- Whether a number is one of the ports that a set stands for. -/
def PortSet.covers (p : PortSet) (port : Nat) : Bool :=
  p.isAny || port ∈ p.ports

/-- Whether an address is one of those that an end stands for. -/
def Endpoint.covers (hosts : String → Address → Bool) : Endpoint → Address → Bool
  | any, _ => true
  | net block, a => block.contains a
  | host name, a => hosts name a

namespace Firewall

/-- What a packet carries. -/
inductive Payload where
  | transport (protocol : Protocol) (port : Nat)
  | icmp
  | other
  deriving DecidableEq

/-- What rules look at in a packet. -/
structure Packet where
  source : Address
  destination : Address
  payload : Payload
  /-- The interface it arrives on. -/
  arrival : String
  /-- The interface it leaves through. -/
  departure : String
  /-- Whether it belongs to a connection that is known already. -/
  established : Bool
  /-- Whether its source sends more than it may. -/
  aboveLimit : Bool
  deriving DecidableEq

section Packet

variable (hosts : String → Address → Bool) (k : Packet)

/-- Whether a packet meets a condition. -/
def Condition.met : Condition → Bool
  | into iface => k.arrival = iface
  | outOf iface => k.departure = iface
  | fromAddress a => k.source = a
  | toAddress a => k.destination = a
  | source e => e.covers hosts k.source
  | destination e => e.covers hosts k.destination
  | service protocol ports =>
    match k.payload with
    | .transport p port => p = protocol && ports.covers port
    | _ => false
  | icmp => k.payload = .icmp
  | established => k.established
  | aboveLimit => k.aboveLimit
  | revision _ => true

/-- Whether a packet meets all conditions of a rule. -/
def PacketRule.applies (r : PacketRule) : Bool :=
  r.conditions.all (Condition.met hosts k)

/-- What a rule decides about a packet. `enter` is what the chain of a jump decides. -/
def PacketRule.outcome (enter : String → Option Verdict) (r : PacketRule) : Option Verdict :=
  if r.applies hosts k then
    match r.verdict with
    | .jump chain => enter chain
    | v => some v
  else none

/-- What the rules of a chain decide about a packet; nothing at their end or where it is sent
back. -/
def walk (enter : String → Option Verdict) : List PacketRule → Option Verdict
  | [] => none
  | r :: rs =>
    match r.outcome hosts k enter with
    | none => walk enter rs
    | some .back => none
    | some v => some v

/-- The rules of a chain. -/
def Table.rulesOf (t : Table) (chain : String) : List PacketRule :=
  t.rules.filter fun r => r.chain = chain

/-- What a chain decides about a packet, with jumps that are at most `depth` deep. -/
def Table.decision (t : Table) : Nat → String → Option Verdict
  | 0, _ => none
  | depth + 1, chain => walk hosts k (t.decision depth) (t.rulesOf chain)

/-- What happens at the end of a chain, if it is a built-in one. -/
def Table.policy? (t : Table) (chain : String) : Option Verdict :=
  (t.chains.find? fun c => c.name = chain).bind (·.policy)

/-- What a table does to a packet in a chain. No chain is entered from within itself, so jumps are
not deeper than there are chains. -/
def Table.verdict (t : Table) (chain : String) : Option Verdict :=
  (t.decision hosts k t.chains.length chain).or (t.policy? chain)

variable {hosts} {k}
variable {enter : String → Option Verdict} {rs : List PacketRule}

/-- Rules that decide nothing are passed over. -/
theorem walk_append_of_none (h : ∀ r ∈ rs, r.outcome hosts k enter = none)
    (qs : List PacketRule) : walk hosts k enter (rs ++ qs) = walk hosts k enter qs := by
  induction rs with
  | nil => rfl
  | cons r rs ih =>
    obtain ⟨hr, hrs⟩ := List.forall_mem_cons.mp h
    simp only [List.cons_append, walk, hr, ih hrs]

/-! ## Rules that accept -/

/-- Rules that accept a packet or leave it alone. -/
def Accepting (hosts : String → Address → Bool) (k : Packet) (enter : String → Option Verdict)
    (rs : List PacketRule) : Prop :=
  ∀ r ∈ rs, r.outcome hosts k enter = none ∨ r.outcome hosts k enter = some .accept

/-- Accepting rules accept a packet if one of them does. -/
theorem Accepting.walk_eq_some_iff (h : Accepting hosts k enter rs) :
    walk hosts k enter rs = some .accept ↔ ∃ r ∈ rs, r.outcome hosts k enter = some .accept := by
  induction rs with
  | nil => simp [walk]
  | cons r rs ih =>
    obtain ⟨hr, hrs⟩ := List.forall_mem_cons.mp h
    simp only [walk, List.mem_cons, exists_eq_or_imp]
    rcases hr with hr | hr
    · simp only [hr, ih hrs, reduceCtorEq, false_or]
    · simp only [hr, true_or]

theorem Accepting.walk_eq_none_or (h : Accepting hosts k enter rs) :
    walk hosts k enter rs = none ∨ walk hosts k enter rs = some .accept := by
  induction rs with
  | nil => exact Or.inl rfl
  | cons r rs ih =>
    obtain ⟨hr, hrs⟩ := List.forall_mem_cons.mp h
    rw [walk]
    rcases hr with hr | hr
    · simpa only [hr] using ih hrs
    · exact Or.inr (by simp only [hr])

/-- Accepting rules accept a packet, or leave it to a rule behind them that drops it. -/
theorem Accepting.walk_append_of_drop (h : Accepting hosts k enter rs) {r : PacketRule}
    (hr : r.outcome hosts k enter = some .drop) (qs : List PacketRule) :
    ((∃ q ∈ rs, q.outcome hosts k enter = some .accept) →
        walk hosts k enter (rs ++ r :: qs) = some .accept) ∧
      ((¬∃ q ∈ rs, q.outcome hosts k enter = some .accept) →
        walk hosts k enter (rs ++ r :: qs) = some .drop) := by
  induction rs with
  | nil => simp [walk, hr]
  | cons q rs ih =>
    obtain ⟨hq, hrs⟩ := List.forall_mem_cons.mp h
    simp only [List.cons_append, walk, List.mem_cons, exists_eq_or_imp]
    rcases hq with hq | hq
    · simpa only [hq, reduceCtorEq, false_or] using ih hrs
    · simp only [hq, true_or, not_true_eq_false, implies_true, false_implies, and_self]

end Packet

end Firewall

end NetworkCompiler
