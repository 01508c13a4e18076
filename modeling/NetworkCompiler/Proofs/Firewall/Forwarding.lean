import NetworkCompiler.Firewall.Kind
import NetworkCompiler.Proofs.Firewall.RouterChains

/-!
# Forwarded connections

Which new connections the router's document lets through. A chain of a machine accepts a packet if
one of the rules behind it matches the end that the jump leaves open (`decision_ingress`,
`decision_forward`, `decision_egress`), and the forwarding chain jumps by the other end. So
`forward_accepts_iff` : a connection is let through if the machine at its destination listens to
it, or the machine at its source may open it.
-/

namespace NetworkCompiler

open Ipv4 (Address)

/-- A rule that asks for the protocol and the port of a connection, and has one of `ends` at an
address. -/
structure ResolvedRule.Matches (hosts : String → Address → Bool) (r : ResolvedRule)
    (ends : List Endpoint) (a : Address) (protocol : Protocol) (port : Nat) : Prop where
  protocol_eq : r.protocol = protocol
  covers_end : ∃ e ∈ ends, e.covers hosts a = true
  covers_port : r.ports.ports = [] ∨ port ∈ r.ports.ports

theorem PortSet.covers_iff {ports : PortSet} {port : Nat} :
    ports.covers port = true ↔ ports.ports = [] ∨ port ∈ ports.ports := by
  simp [covers, isAny]

namespace Firewall

/-- A machine that listens to a connection, or that may open it. -/
def Admits (hosts : String → Address → Bool) (k : Packet)
    (protocol : Protocol) (port : Nat) (m : MachineRules) : Prop :=
  (k.destination ∈ m.addresses ∧
      ∃ x ∈ m.towards, x.Matches hosts x.sources k.source protocol port) ∨
    (k.source ∈ m.addresses ∧
      ∃ x ∈ m.forward ++ m.egress, x.Matches hosts x.destinations k.destination protocol port)

section Chains

variable {hosts : String → Address → Bool} {k : Packet} {enter : String → Option Verdict}

/-! ## Accepting rules -/

theorem outcome_of_accept {r : PacketRule} (h : r.verdict = .accept) :
    r.outcome hosts k enter = if r.applies hosts k then some .accept else none := by
  unfold PacketRule.outcome
  rw [h]

theorem outcome_jump {chain c : String} {condition : Condition} :
    (⟨chain, [condition], .jump c⟩ : PacketRule).outcome hosts k enter =
      if condition.met hosts k then enter c else none := by
  simp [PacketRule.outcome, PacketRule.applies]

theorem accepting_of_accept {rs : List PacketRule} (h : ∀ r ∈ rs, r.verdict = .accept) :
    Accepting hosts k enter rs := fun r hr => by
  rw [outcome_of_accept (h r hr)]
  split
  · exact Or.inr rfl
  · exact Or.inl rfl

theorem met_service_iff {protocol : Protocol} {ports : PortSet} :
    Condition.met hosts k (.service protocol ports) = true ↔
      ∃ n, k.payload = .transport protocol n ∧ ports.covers n = true := by
  rw [Condition.met]
  split
  · next p n hpayload =>
    simp only [Bool.and_eq_true, decide_eq_true_eq, hpayload, Payload.transport.injEq]
    constructor
    · rintro ⟨rfl, h⟩
      exact ⟨n, ⟨rfl, rfl⟩, h⟩
    · rintro ⟨_, ⟨rfl, rfl⟩, h⟩
      exact ⟨rfl, h⟩
  · next hother =>
    constructor
    · exact fun h => absurd h Bool.false_ne_true
    · rintro ⟨n, hpayload, -⟩
      exact absurd hpayload (hother protocol n)

/-- A rule that a packet meets if one of `ends` is at an address. -/
def Meets (hosts : String → Address → Bool) (k : Packet) (x : ResolvedRule) (ends : List Endpoint)
    (a : Address) : Prop :=
  ∃ protocol port, k.payload = .transport protocol port ∧ x.Matches hosts ends a protocol port

section Rule

variable {x : ResolvedRule} {ends : List Endpoint} {a : Address}

theorem meets_iff :
    Meets hosts k x ends a ↔ ∃ e ∈ ends, e.covers hosts a = true ∧
      Condition.met hosts k (.service x.protocol x.ports) = true := by
  simp only [met_service_iff, PortSet.covers_iff]
  constructor
  · rintro ⟨_, n, hpayload, rfl, ⟨e, he, hcovers⟩, hport⟩
    exact ⟨e, he, hcovers, n, hpayload, hport⟩
  · rintro ⟨e, he, hcovers, n, hpayload, hport⟩
    exact ⟨_, n, hpayload, rfl, ⟨e, he, hcovers⟩, hport⟩

theorem meets_iff_matches {protocol : Protocol} {port : Nat}
    (hpayload : k.payload = .transport protocol port) :
    Meets hosts k x ends a ↔ x.Matches hosts ends a protocol port := by
  constructor
  · rintro ⟨p, n, hp, hmatches⟩
    cases hpayload.symm.trans hp
    exact hmatches
  · exact fun hmatches => ⟨protocol, port, hpayload, hmatches⟩

/-- Rules that accept a resolved rule from or to each of its ends. -/
theorem exists_outcome_iff {c : String} {side : Endpoint → Condition}
    (hside : ∀ e, (side e).met hosts k = e.covers hosts a) :
    (∃ q ∈ ends.map fun e => (⟨c, [side e, .service x.protocol x.ports], .accept⟩ : PacketRule),
        q.outcome hosts k enter = some .accept) ↔ Meets hosts k x ends a := by
  have hrule : ∀ e, (⟨c, [side e, .service x.protocol x.ports], .accept⟩ : PacketRule).outcome
      hosts k enter = some .accept ↔
        e.covers hosts a = true ∧ Condition.met hosts k (.service x.protocol x.ports) = true :=
    fun e => by
      rw [outcome_of_accept rfl, ← hside]
      simp [PacketRule.applies]
  simp only [List.mem_map, exists_exists_and_eq_and, hrule, meets_iff]

end Rule

/-- A chain that accepts from the sources of rules. -/
theorem walk_acceptFrom {xs : List ResolvedRule} {c : String} :
    walk hosts k enter (xs.flatMap (acceptFrom c)) = some .accept ↔
      ∃ x ∈ xs, Meets hosts k x x.sources k.source := by
  rw [(accepting_of_accept fun r hr => (chain_of_mem_acceptFrom hr).2).walk_eq_some_iff]
  rw [exists_mem_flatMap]
  exact exists_congr fun x => and_congr_right fun _ => exists_outcome_iff fun _ => rfl

/-- A chain that accepts to the destinations of rules. -/
theorem walk_acceptTo {xs : List ResolvedRule} {c : String} :
    walk hosts k enter (xs.flatMap (acceptTo c)) = some .accept ↔
      ∃ x ∈ xs, Meets hosts k x x.destinations k.destination := by
  rw [(accepting_of_accept fun r hr => (chain_of_mem_acceptTo hr).2).walk_eq_some_iff]
  rw [exists_mem_flatMap]
  exact exists_congr fun x => and_congr_right fun _ => exists_outcome_iff fun _ => rfl

end Chains

/-! ## The forwarding chain -/

section Forwarding

variable {g : Graph} {p : FirewallPlan} {r : Ruleset} (hp : p.IsNamed)
  (hr : Ruleset.router? g p = .ok r)
include hp hr

variable {hosts : String → Address → Bool} {k : Packet} {m : MachineRules} (hm : m ∈ membersOf p)
include hm

/-- The chains of a machine accept a packet within the limit, or leave it alone. -/
theorem decision_eq_none_or (hlimit : k.aboveLimit = false) {depth : Nat} {c : String}
    (hc : c ∈ m.chains.all) :
    r.loadedFilter.decision hosts k depth c = none ∨
      r.loadedFilter.decision hosts k depth c = some .accept := by
  cases depth with
  | zero => exact Or.inl rfl
  | succ depth =>
    refine Accepting.walk_eq_none_or fun q hq => ?_
    rw [rulesOf_memberChain hp hr hm hc] at hq
    have hq := List.mem_of_mem_filter hq
    simp only [memberRules, List.mem_append] at hq
    rcases hq with ((hq | hq) | hq) | hq
    · exact accepting_of_accept (fun _ h => (chain_of_mem_acceptFrom h).2) q hq
    · exact accepting_of_accept (fun _ h => (chain_of_mem_acceptTo h).2) q hq
    · rw [chain_of_mem_throttleRules hq]
      exact Or.inl (by simp [PacketRule.outcome, PacketRule.applies, Condition.met, hlimit])
    · exact accepting_of_accept (fun _ h => (chain_of_mem_acceptTo h).2) q hq

theorem decision_ingress (depth : Nat) :
    r.loadedFilter.decision hosts k (depth + 1) m.chains.ingress = some .accept ↔
      ∃ x ∈ m.towards, Meets hosts k x x.sources k.source := by
  rw [Table.decision, rulesOf_ingress hp hr hm, walk_acceptFrom]

theorem decision_forward (depth : Nat) :
    r.loadedFilter.decision hosts k (depth + 1) m.chains.forward = some .accept ↔
      ∃ x ∈ m.forward, Meets hosts k x x.destinations k.destination := by
  rw [Table.decision, rulesOf_forward hp hr hm, walk_acceptTo]

theorem decision_egress (hlimit : k.aboveLimit = false) (depth : Nat) :
    r.loadedFilter.decision hosts k (depth + 1) m.chains.egress = some .accept ↔
      ∃ x ∈ m.egress, Meets hosts k x x.destinations k.destination := by
  have hthrottle : ∀ q ∈ throttleRules m,
      q.outcome hosts k (r.loadedFilter.decision hosts k depth) = none := by
    intro q hq
    rw [chain_of_mem_throttleRules hq]
    simp [PacketRule.outcome, PacketRule.applies, Condition.met, hlimit]
  rw [Table.decision, rulesOf_egress hp hr hm, walk_append_of_none hthrottle,
    walk_acceptTo]

/-- The jumps of a machine enter its chains by the address at either end. -/
theorem exists_jump_iff {protocol : Protocol} {port : Nat}
    (hpayload : k.payload = .transport protocol port) (hlimit : k.aboveLimit = false)
    {depth : Nat} :
    (∃ q ∈ jumps m, q.outcome hosts k (r.loadedFilter.decision hosts k (depth + 1)) =
        some .accept) ↔ Admits hosts k protocol port m := by
  have hjump : ∀ (a : Address) (c : String) (side : Address → Condition),
      (⟨forwardChain, [side a], .jump c⟩ : PacketRule).outcome hosts k
          (r.loadedFilter.decision hosts k (depth + 1)) = some .accept ↔
        (side a).met hosts k = true ∧
          r.loadedFilter.decision hosts k (depth + 1) c = some .accept := fun a c side => by
    rw [outcome_jump]
    cases (side a).met hosts k <;> simp
  rw [jumps, exists_mem_flatMap, Admits]
  simp only [List.mem_cons, List.not_mem_nil, or_false, exists_eq_left, hjump,
    decision_ingress hp hr hm, decision_forward hp hr hm, decision_egress hp hr hm hlimit,
    meets_iff_matches hpayload, Condition.met, decide_eq_true_eq, List.mem_append, or_and_right,
    exists_or]
  constructor
  · rintro ⟨a, ha, ⟨rfl, h⟩ | ⟨rfl, h⟩ | ⟨rfl, h⟩⟩
    · exact Or.inl ⟨ha, h⟩
    · exact Or.inr ⟨ha, Or.inl h⟩
    · exact Or.inr ⟨ha, Or.inr h⟩
  · rintro (⟨ha, h⟩ | ⟨ha, h | h⟩)
    · exact ⟨k.destination, ha, Or.inl ⟨rfl, h⟩⟩
    · exact ⟨k.source, ha, Or.inr (Or.inl ⟨rfl, h⟩)⟩
    · exact ⟨k.source, ha, Or.inr (Or.inr ⟨rfl, h⟩)⟩

end Forwarding

theorem isEmpty_iff {m : MachineRules} :
    m.isEmpty = true ↔ m.towards = [] ∧ m.forward ++ m.egress = [] ∧ m.throttled = false := by
  simp only [MachineRules.isEmpty, MachineRules.towards, Bool.and_eq_true, List.isEmpty_iff,
    Bool.not_eq_true', List.append_eq_nil_iff, and_assoc]

/-- A machine that has an address and asks for something has chains. -/
theorem mem_membersOf {p : FirewallPlan} {m : MachineRules} {a : Address} {x : ResolvedRule}
    (hm : m ∈ p.members) (ha : a ∈ m.addresses) (hx : x ∈ m.towards ∨ x ∈ m.forward ++ m.egress) :
    m ∈ membersOf p := by
  have haddresses : m.addresses ≠ [] := List.ne_nil_of_mem ha
  have hempty : m.isEmpty ≠ true := fun h => by
    obtain ⟨htowards, hfrom, -⟩ := isEmpty_iff.mp h
    rw [htowards, hfrom] at hx
    simp at hx
  exact List.mem_filter.mpr ⟨hm, by simp [haddresses, hempty]⟩

/-- A machine that admits a connection has chains. -/
theorem mem_membersOf_of_admits {p : FirewallPlan} {hosts : String → Address → Bool} {k : Packet}
    {protocol : Protocol} {port : Nat} {m : MachineRules} (hm : m ∈ p.members)
    (h : Admits hosts k protocol port m) : m ∈ membersOf p := by
  rcases h with ⟨ha, x, hx, -⟩ | ⟨ha, x, hx, -⟩
  · exact mem_membersOf hm ha (.inl hx)
  · exact mem_membersOf hm ha (.inr hx)

section Forwarding

variable {g : Graph} {p : FirewallPlan} {r : Ruleset} (hp : p.IsNamed)
  (hr : Ruleset.router? g p = .ok r) (hosts : String → Address → Bool) {k : Packet}
  {protocol : Protocol} {port : Nat} (hpayload : k.payload = .transport protocol port)
  (hnew : k.established = false) (hlimit : k.aboveLimit = false)
include hp hr hpayload hnew hlimit

/-- The forwarding chain accepts a new connection if some machine admits it, and decides nothing
otherwise. -/
theorem decision_forwardChain (depth : Nat) :
    (r.loadedFilter.decision hosts k (depth + 2) forwardChain = some .accept ↔
        ∃ m ∈ p.members, Admits hosts k protocol port m) ∧
      (r.loadedFilter.decision hosts k (depth + 2) forwardChain = none ∨
        r.loadedFilter.decision hosts k (depth + 2) forwardChain = some .accept) := by
  have hestablished : (⟨forwardChain, [.established], .accept⟩ : PacketRule).outcome hosts k
      (r.loadedFilter.decision hosts k (depth + 1)) = none := by
    simp [PacketRule.outcome, PacketRule.applies, Condition.met, hnew]
  have haccepting : Accepting hosts k (r.loadedFilter.decision hosts k (depth + 1))
      ((membersOf p).flatMap jumps) := fun q hq => by
    obtain ⟨m, hm, hq⟩ := List.mem_flatMap.mp hq
    obtain ⟨condition, c, hc, rfl⟩ := exists_of_mem_jumps hq
    rw [outcome_jump]
    split
    · exact decision_eq_none_or hp hr hm hlimit hc
    · exact Or.inl rfl
  rw [Table.decision, rulesOf_forwardChain hp hr]
  simp only [walk, hestablished]
  refine ⟨?_, haccepting.walk_eq_none_or⟩
  rw [haccepting.walk_eq_some_iff, exists_mem_flatMap]
  constructor
  · rintro ⟨m, hm, h⟩
    exact ⟨m, List.mem_of_mem_filter hm, (exists_jump_iff hp hr hm hpayload hlimit).mp h⟩
  · rintro ⟨m, hm, h⟩
    have hm := mem_membersOf_of_admits hm h
    exact ⟨m, hm, (exists_jump_iff hp hr hm hpayload hlimit).mpr h⟩

omit hp hpayload hnew hlimit in
/-- The table does what the forwarding chain decides, and drops a packet if it decides nothing. -/
theorem exists_verdict_eq (k : Packet) :
    ∃ depth, r.loadedFilter.verdict hosts k forwardChain =
      (r.loadedFilter.decision hosts k (depth + 2) forwardChain).or (some .drop) := by
  have hfilter := router?_eq_ok hr
  have hpolicy : r.loadedFilter.policy? forwardChain = some .drop := by
    rw [Table.policy?, Ruleset.loadedFilter, hfilter]
    rfl
  obtain ⟨depth, hdepth⟩ : ∃ depth, r.loadedFilter.chains.length = depth + 2 := by
    rw [Ruleset.loadedFilter, hfilter, routerFilter, List.length_append]
    exact ⟨_, Nat.add_right_comm 2 2 _⟩
  exact ⟨depth, by rw [Table.verdict, hpolicy, hdepth]⟩

/-- The table accepts a new connection if some machine admits it, and drops it otherwise. -/
theorem verdict_forwardChain :
    (r.loadedFilter.verdict hosts k forwardChain = some .accept ↔
        ∃ m ∈ p.members, Admits hosts k protocol port m) ∧
      (r.loadedFilter.verdict hosts k forwardChain = some .accept ∨
        r.loadedFilter.verdict hosts k forwardChain = some .drop) := by
  obtain ⟨depth, hverdict⟩ := exists_verdict_eq hr hosts k
  obtain ⟨hiff, hdecision⟩ := decision_forwardChain hp hr hosts hpayload hnew hlimit depth
  rw [hverdict, ← hiff]
  rcases hdecision with h | h <;> simp [h]

end Forwarding

/-- A router and two servers, one of which listens. -/
def listeningLab : Description where
  domain := some "lan"
  servers := [
    ("mail", { types := ["dedicated"], lan := [("lan0", { mac := some "02:00:00:00:00:02" })] }),
    ("router", { types := ["router"], wan := [("eth1", {})], lan := [("eth0", {})] }),
    ("web", { types := ["dedicated"], firewall := { listenTcp := [443] },
              lan := [("lan0",
                { mac := some "02:00:00:00:00:01", address := some "10.10.0.9" })] })]

/-- The first packet of a connection from outside to a port of the listening server. -/
def packetTo (port : Nat) : Packet where
  source := .ofOctets 192 0 2 1
  destination := .ofOctets 10 10 0 9
  payload := .transport .tcp port
  arrival := "eth1"
  departure := "eth0"
  established := false
  aboveLimit := false

end Firewall

end NetworkCompiler
