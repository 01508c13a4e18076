import NetworkCompiler.Proofs.Firewall.Forwarding
import NetworkCompiler.Proofs.Ipv4.Blocks

/-!
# Two firewalls, the same grants

A jump from the forwarding chain and a rule that accepts in the chain it enters let a connection
through together, if it meets the conditions of both (`Table.Forwards`). Such conditions ask for at
most one end on either side and for one service, so they amount to accept rules of the form that
zones have (`Grants`, `Reached.met_iff`). `forwarded_grants_iff` : the accept rules that the
router's table has for forwarded connections are those of the router's zone for the other machines.
-/

namespace NetworkCompiler

open Ipv4 (Address Block)

/-- A port out of a set, none if the set stands for every port. -/
def PortSet.Names (ports : PortSet) (port : Option Nat) : Prop :=
  (ports.ports = [] ∧ port = none) ∨ ∃ n ∈ ports.ports, port = some n

/-- The ports that a set names are those that it covers. -/
theorem PortSet.covers_iff_names {ports : PortSet} {n : Nat} :
    ports.covers n = true ↔ ∃ port, ports.Names port ∧ (port = none ∨ port = some n) := by
  rw [covers_iff]
  constructor
  · rintro (h | h)
    · exact ⟨none, .inl ⟨h, rfl⟩, .inl rfl⟩
    · exact ⟨some n, .inr ⟨n, h, rfl⟩, .inr rfl⟩
  · rintro ⟨port, ⟨h, -⟩ | ⟨i, hi, rfl⟩, hport⟩
    · exact .inl h
    · simp only [reduceCtorEq, Option.some.injEq, false_or] at hport
      exact .inr (hport ▸ hi)

namespace Firewall

/-! ## Conditions as accept rules -/

/-- The end that a condition asks for on the side of the source. -/
def Condition.source? : Condition → Option Endpoint
  | fromAddress a => some (.net (Block.single a))
  | source e => some e
  | _ => none

/-- The end that a condition asks for on the side of the destination. -/
def Condition.destination? : Condition → Option Endpoint
  | toAddress a => some (.net (Block.single a))
  | destination e => some e
  | _ => none

/-- The service that a condition asks for. -/
def Condition.service? : Condition → Option (Protocol × PortSet)
  | service protocol ports => some (protocol, ports)
  | _ => none

/-- The end that is asked for on one side : anywhere, if none is. Two ends are no single end. -/
def endOf? : List Endpoint → Option Endpoint
  | [] => some .any
  | [e] => some e
  | _ => none

/-- An accept rule that is part of what conditions ask for together. -/
structure Grants (conditions : List Condition) (x : AcceptRule) : Prop where
  source_eq : endOf? (conditions.filterMap Condition.source?) = some x.source
  destination_eq : endOf? (conditions.filterMap Condition.destination?) = some x.destination
  service_eq : ∃ ports, conditions.filterMap Condition.service? = [(x.protocol, ports)] ∧
    ports.Names x.port

/-- A packet that an accept rule lets through. -/
structure AcceptRule.Covers (hosts : String → Address → Bool) (k : Packet) (x : AcceptRule) :
    Prop where
  source : x.source.covers hosts k.source = true
  destination : x.destination.covers hosts k.destination = true
  service : ∃ n, k.payload = .transport x.protocol n ∧ (x.port = none ∨ x.port = some n)

/-- The conditions of a jump from the forwarding chain and of a rule that accepts in the chain it
enters. -/
def Table.Forwards (t : Table) (conditions : List Condition) : Prop :=
  ∃ j ∈ t.rulesOf forwardChain, ∃ c, j.verdict = .jump c ∧
    ∃ q ∈ t.rulesOf c, q.verdict = .accept ∧ conditions = j.conditions ++ q.conditions

/-! ## The rules of a machine -/

/-- Conditions by which a rule of a machine is reached : the address of the machine on one side, an
end of the rule on the other. -/
inductive Reached (m : MachineRules) : List Condition → Prop where
  | into {a : Address} {r : ResolvedRule} {e : Endpoint} (ha : a ∈ m.addresses)
      (hr : r ∈ m.towards) (he : e ∈ r.sources) :
      Reached m [.toAddress a, .source e, .service r.protocol r.ports]
  | outOf {a : Address} {r : ResolvedRule} {e : Endpoint} (ha : a ∈ m.addresses)
      (hr : r ∈ m.forward ++ m.egress) (he : e ∈ r.destinations) :
      Reached m [.fromAddress a, .destination e, .service r.protocol r.ports]

theorem grants_iff {conditions : List Condition} {source destination : Endpoint}
    {protocol : Protocol} {ports : PortSet} {x : AcceptRule}
    (hsource : endOf? (conditions.filterMap Condition.source?) = some source)
    (hdestination : endOf? (conditions.filterMap Condition.destination?) = some destination)
    (hservice : conditions.filterMap Condition.service? = [(protocol, ports)]) :
    Grants conditions x ↔
      ∃ port, ports.Names port ∧ x = ⟨source, destination, protocol, port⟩ := by
  constructor
  · rintro ⟨hs, hd, found, hfound, hport⟩
    obtain ⟨s, d, p, port⟩ := x
    rw [hsource, Option.some.injEq] at hs
    rw [hdestination, Option.some.injEq] at hd
    rw [hservice, List.cons.injEq, Prod.mk.injEq] at hfound
    obtain ⟨⟨hp, rfl⟩, -⟩ := hfound
    exact ⟨port, hport, by rw [hs, hd, hp]⟩
  · rintro ⟨port, hport, rfl⟩
    exact ⟨hsource, hdestination, ports, hservice, hport⟩

theorem names_iff_mem_singlePorts {ports : PortSet} {port : Option Nat} :
    ports.Names port ↔ port ∈ singlePorts ports := by
  unfold PortSet.Names singlePorts PortSet.isAny
  cases hports : ports.ports with
  | nil => simp
  | cons n ns => simp [eq_comm]

/-- The accept rules of a machine in a zone are what its rules in a table amount to. -/
theorem mem_memberAccepts {m : MachineRules} {x : AcceptRule} :
    x ∈ memberAccepts m ↔ ∃ conditions, Reached m conditions ∧ Grants conditions x := by
  simp only [memberAccepts, acceptInto, acceptOutOf, List.mem_flatMap, List.mem_append,
    List.mem_map, ← names_iff_mem_singlePorts]
  constructor
  · rintro ⟨a, ha, ⟨r, hr, e, he, port, hport, rfl⟩ | ⟨r, hr, e, he, port, hport, rfl⟩⟩
    · exact ⟨_, .into ha hr he, (grants_iff rfl rfl rfl).mpr ⟨port, hport, rfl⟩⟩
    · exact ⟨_, .outOf ha (List.mem_append.mpr hr) he,
        (grants_iff rfl rfl rfl).mpr ⟨port, hport, rfl⟩⟩
  · rintro ⟨conditions, hreached, hgrants⟩
    cases hreached with
    | @into a r e ha hr he =>
      obtain ⟨port, hport, rfl⟩ := (grants_iff rfl rfl rfl).mp hgrants
      exact ⟨a, ha, .inl ⟨r, hr, e, he, port, hport, rfl⟩⟩
    | @outOf a r e ha hr he =>
      obtain ⟨port, hport, rfl⟩ := (grants_iff rfl rfl rfl).mp hgrants
      exact ⟨a, ha, .inr ⟨r, List.mem_append.mp hr, e, he, port, hport, rfl⟩⟩

section Packets

variable {hosts : String → Address → Bool} {k : Packet}

/-- The accept rules of a pair of ends, a protocol and a set of ports let through what meets all
three. -/
theorem exists_covers_iff {source destination : Endpoint} {protocol : Protocol} {ports : PortSet} :
    (∃ port, ports.Names port ∧
        (⟨source, destination, protocol, port⟩ : AcceptRule).Covers hosts k) ↔
      source.covers hosts k.source = true ∧ destination.covers hosts k.destination = true ∧
        Condition.met hosts k (.service protocol ports) = true := by
  rw [met_service_iff]
  constructor
  · rintro ⟨port, hport, hsource, hdestination, n, hpayload, hn⟩
    exact ⟨hsource, hdestination, n, hpayload,
      PortSet.covers_iff_names.mpr ⟨port, hport, hn⟩⟩
  · rintro ⟨hsource, hdestination, n, hpayload, hn⟩
    obtain ⟨port, hport, hn⟩ := PortSet.covers_iff_names.mp hn
    exact ⟨port, hport, hsource, hdestination, n, hpayload, hn⟩

/-- A packet meets the conditions by which a rule is reached if one of the accept rules that they
amount to lets it through. -/
theorem Reached.met_iff {m : MachineRules} {conditions : List Condition}
    (h : Reached m conditions) :
    conditions.all (Condition.met hosts k) = true ↔
      ∃ x, Grants conditions x ∧ x.Covers hosts k := by
  have hrules : ∀ {source destination : Endpoint} {protocol : Protocol} {ports : PortSet},
      endOf? (conditions.filterMap Condition.source?) = some source →
      endOf? (conditions.filterMap Condition.destination?) = some destination →
      conditions.filterMap Condition.service? = [(protocol, ports)] →
      ((∃ x, Grants conditions x ∧ x.Covers hosts k) ↔ source.covers hosts k.source = true ∧
        destination.covers hosts k.destination = true ∧
          Condition.met hosts k (.service protocol ports) = true) := by
    intro source destination protocol ports hsource hdestination hservice
    rw [← exists_covers_iff]
    constructor
    · rintro ⟨x, hgrants, hcovers⟩
      obtain ⟨port, hport, rfl⟩ := (grants_iff hsource hdestination hservice).mp hgrants
      exact ⟨port, hport, hcovers⟩
    · rintro ⟨port, hport, hcovers⟩
      exact ⟨_, (grants_iff hsource hdestination hservice).mpr ⟨port, hport, rfl⟩, hcovers⟩
  cases h with
  | into ha hr he =>
    rw [hrules rfl rfl rfl]
    simp only [List.all_cons, List.all_nil, Bool.and_true, Bool.and_eq_true, Condition.met,
      Endpoint.covers, Block.contains_single, decide_eq_true_eq]
    tauto
  | outOf ha hr he =>
    rw [hrules rfl rfl rfl]
    simp only [List.all_cons, List.all_nil, Bool.and_true, Bool.and_eq_true, Condition.met,
      Endpoint.covers, Block.contains_single, decide_eq_true_eq]

end Packets

/-! ## The router -/

theorem exists_of_mem_acceptFrom {xs : List ResolvedRule} {c : String} {q : PacketRule}
    (h : q ∈ xs.flatMap (acceptFrom c)) :
    ∃ x ∈ xs, ∃ e ∈ x.sources, q = ⟨c, [.source e, .service x.protocol x.ports], .accept⟩ := by
  obtain ⟨x, hx, h⟩ := List.mem_flatMap.mp h
  obtain ⟨e, he, rfl⟩ := List.mem_map.mp h
  exact ⟨x, hx, e, he, rfl⟩

theorem exists_of_mem_acceptTo {xs : List ResolvedRule} {c : String} {q : PacketRule}
    (h : q ∈ xs.flatMap (acceptTo c)) :
    ∃ x ∈ xs, ∃ e ∈ x.destinations,
      q = ⟨c, [.destination e, .service x.protocol x.ports], .accept⟩ := by
  obtain ⟨x, hx, h⟩ := List.mem_flatMap.mp h
  obtain ⟨e, he, rfl⟩ := List.mem_map.mp h
  exact ⟨x, hx, e, he, rfl⟩

/-- A machine one of whose rules is reached has chains. -/
theorem mem_membersOf_of_reached {p : FirewallPlan} {m : MachineRules} {conditions : List Condition}
    (hm : m ∈ p.members) (h : Reached m conditions) : m ∈ membersOf p := by
  cases h with
  | into ha hr _ => exact mem_membersOf hm ha (.inl hr)
  | outOf ha hr _ => exact mem_membersOf hm ha (.inr hr)

section Router

variable {g : Graph} {p : FirewallPlan} {r : Ruleset} (hp : p.IsNamed)
  (hr : Ruleset.router? g p = .ok r)
include hp hr

/-- What a jump of a machine reaches. -/
theorem reached_of_jump {m : MachineRules} (hm : m ∈ membersOf p) {j q : PacketRule} {c : String}
    (hj : j ∈ jumps m) (hc : j.verdict = .jump c) (hq : q ∈ r.loadedFilter.rulesOf c)
    (haccept : q.verdict = .accept) : Reached m (j.conditions ++ q.conditions) := by
  obtain ⟨a, ha, hj⟩ := List.mem_flatMap.mp hj
  simp only [List.mem_cons, List.not_mem_nil, or_false] at hj
  rcases hj with rfl | rfl | rfl <;> cases hc
  · rw [rulesOf_ingress hp hr hm] at hq
    obtain ⟨x, hx, e, he, rfl⟩ := exists_of_mem_acceptFrom hq
    exact .into ha hx he
  · rw [rulesOf_forward hp hr hm] at hq
    obtain ⟨x, hx, e, he, rfl⟩ := exists_of_mem_acceptTo hq
    exact .outOf ha (List.mem_append_left _ hx) he
  · rw [rulesOf_egress hp hr hm] at hq
    rcases List.mem_append.mp hq with hq | hq
    · rw [chain_of_mem_throttleRules hq] at haccept
      cases haccept
    · obtain ⟨x, hx, e, he, rfl⟩ := exists_of_mem_acceptTo hq
      exact .outOf ha (List.mem_append_right _ hx) he

/-- Every rule of a machine is behind a jump. -/
theorem forwards_of_reached {m : MachineRules} (hm : m ∈ membersOf p) {conditions : List Condition}
    (h : Reached m conditions) : r.loadedFilter.Forwards conditions := by
  have hjump : ∀ j ∈ jumps m, j ∈ r.loadedFilter.rulesOf forwardChain := fun j hj => by
    rw [rulesOf_forwardChain hp hr]
    exact List.mem_cons_of_mem _ (List.mem_flatMap_of_mem hm hj)
  cases h with
  | @into a x e ha hx he =>
    refine ⟨⟨forwardChain, [.toAddress a], .jump m.chains.ingress⟩,
      hjump _ (List.mem_flatMap.mpr ⟨a, ha, by simp⟩), _, rfl, ?_⟩
    rw [rulesOf_ingress hp hr hm]
    exact ⟨_, List.mem_flatMap_of_mem hx (List.mem_map_of_mem he), rfl, rfl⟩
  | @outOf a x e ha hx he =>
    rcases List.mem_append.mp hx with hx | hx
    · refine ⟨⟨forwardChain, [.fromAddress a], .jump m.chains.forward⟩,
        hjump _ (List.mem_flatMap.mpr ⟨a, ha, by simp⟩), _, rfl, ?_⟩
      rw [rulesOf_forward hp hr hm]
      exact ⟨_, List.mem_flatMap_of_mem hx (List.mem_map_of_mem he), rfl, rfl⟩
    · refine ⟨⟨forwardChain, [.fromAddress a], .jump m.chains.egress⟩,
        hjump _ (List.mem_flatMap.mpr ⟨a, ha, by simp⟩), _, rfl, ?_⟩
      rw [rulesOf_egress hp hr hm]
      exact ⟨_, List.mem_append_right _
        (List.mem_flatMap_of_mem hx (List.mem_map_of_mem he)), rfl, rfl⟩

/-- The forwarding chain reaches the rules of the machines with chains, and nothing else. -/
theorem forwards_iff {conditions : List Condition} :
    r.loadedFilter.Forwards conditions ↔ ∃ m ∈ membersOf p, Reached m conditions := by
  constructor
  · rintro ⟨j, hj, c, hc, q, hq, haccept, rfl⟩
    rw [rulesOf_forwardChain hp hr] at hj
    rcases List.mem_cons.mp hj with rfl | hj
    · cases hc
    · obtain ⟨m, hm, hj⟩ := List.mem_flatMap.mp hj
      exact ⟨m, hm, reached_of_jump hp hr hm hj hc hq haccept⟩
  · rintro ⟨m, hm, h⟩
    exact forwards_of_reached hp hr hm h

end Router

/-- A router, a server that may ask another one for its data, and that server. -/
def askingLab : Description where
  domain := some "lan"
  servers := [
    ("db", { types := ["dedicated"], lan := [("lan0", { mac := some "02:00:00:00:00:02" }),
              ("lan1", { mac := some "02:00:00:00:00:03" })] }),
    ("router", { types := ["router"], wan := [("eth1", {})], lan := [("eth0", {})] }),
    ("web", { types := ["dedicated"],
              firewall :=
                { listenTcp := [80, 443], allowEgressTo := ["db:5432"], throttle := true },
              lan := [("lan0",
                { mac := some "02:00:00:00:00:01", address := some "10.10.0.9" })] })]

/-- Connections from the asking server to the second address of the other one. -/
def ruleTo (port : Option Nat) : AcceptRule where
  source := .net (Block.single (.ofOctets 10 10 0 9))
  destination := .net (Block.single (.ofOctets 10 10 0 3))
  protocol := .tcp
  port := port

end Firewall

end NetworkCompiler
