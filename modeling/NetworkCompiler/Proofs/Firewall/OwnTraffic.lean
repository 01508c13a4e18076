import NetworkCompiler.Proofs.Firewall.Grants

/-!
# Traffic to the router itself

Which new connections the router's two documents let through to the router. The packet filter ties
the router's own services, which are remote access, names and addresses, to the inner interfaces
(`verdict_inputChain`). A zone holds for all its interfaces, and its rules do not say whether a
connection is for the router or passes it (`router_verdict?`) : it lets through on an outer interface
too what belongs to an own service, and to the router what a rule of another machine covers.
`own_verdict_iff` : these are all the differences, apart from the loopback's name and address.
-/

namespace NetworkCompiler.Firewall

open Ipv4 (Address Block)

/-! ## Zones -/

/-- What the predefined services of zones stand for. -/
def servicePorts : String → List (Protocol × Nat)
  | "ssh" => [(.tcp, 22)]
  | "dns" => [(.tcp, 53), (.udp, 53)]
  | "dhcp" => [(.udp, 67)]
  | _ => []

section Packet

variable (hosts : String → Address → Bool) (k : Packet)

/-- Whether a packet belongs to a predefined service. -/
def serviceCovers (service : String) : Bool :=
  match k.payload with
  | .transport protocol port => (protocol, port) ∈ servicePorts service
  | _ => false

/-- Whether an accept rule lets a packet through. -/
def AcceptRule.covers (x : AcceptRule) : Bool :=
  x.source.covers hosts k.source && x.destination.covers hosts k.destination &&
    match k.payload with
    | .transport protocol port => protocol = x.protocol && (x.port = none || x.port = some port)
    | _ => false

/-- The source that the rule with the fingerprint drops, in front of all rules that accept. -/
def markerSource : Address := .ofOctets 127 0 0 1

/-- What a zone does to the first packet of a connection, if it arrives on one of its interfaces. -/
def Zone.verdict? (z : Zone) : Option Verdict :=
  if k.arrival ∈ z.interfaces then
    if k.source ≠ markerSource ∧
        (z.services.any (serviceCovers k) || z.rules.any (AcceptRule.covers hosts k)) then
      some .accept
    else some .drop
  else none

end Packet

/-- The services that the router has for itself : remote access, names and addresses. -/
def ownServices : List (Protocol × Nat) :=
  [(.tcp, 22), (.tcp, 53), (.udp, 53), (.udp, 67)]

section Packets

variable {hosts : String → Address → Bool} {k : Packet}

theorem AcceptRule.covers_iff {x : AcceptRule} :
    x.covers hosts k = true ↔ x.Covers hosts k := by
  have hservice : (match k.payload with
      | .transport protocol port => decide (protocol = x.protocol) &&
          (decide (x.port = none) || decide (x.port = some port))
      | _ => false) = true ↔
        ∃ n, k.payload = .transport x.protocol n ∧ (x.port = none ∨ x.port = some n) := by
    cases k.payload with
    | transport protocol port =>
      simp only [Bool.and_eq_true, Bool.or_eq_true, decide_eq_true_eq, Payload.transport.injEq]
      constructor
      · rintro ⟨rfl, hport⟩
        exact ⟨port, ⟨rfl, rfl⟩, hport⟩
      · rintro ⟨_, ⟨rfl, rfl⟩, hport⟩
        exact ⟨rfl, hport⟩
    | icmp => simp
    | other => simp
  unfold AcceptRule.covers
  rw [Bool.and_eq_true, Bool.and_eq_true, hservice]
  constructor
  · rintro ⟨⟨hsource, hdestination⟩, hservice⟩
    exact ⟨hsource, hdestination, hservice⟩
  · rintro ⟨hsource, hdestination, hservice⟩
    exact ⟨⟨hsource, hdestination⟩, hservice⟩

/-- The accept rules of the ends and ports of a rule let through what meets the rule at these ends,
and whatever else a single one of them asks for. -/
theorem exists_acceptRules_iff {x : ResolvedRule} {ends : List Endpoint} {a : Address}
    {other : Prop} {rule : Endpoint → Option Nat → AcceptRule}
    (hrule : ∀ e, (∃ port, x.ports.Names port ∧ (rule e port).Covers hosts k) ↔
      other ∧ e.covers hosts a = true ∧
        Condition.met hosts k (.service x.protocol x.ports) = true) :
    (∃ y ∈ ends.flatMap fun e => (singlePorts x.ports).map (rule e), y.Covers hosts k) ↔
      other ∧ Meets hosts k x ends a := by
  simp only [List.mem_flatMap, List.mem_map, ← names_iff_mem_singlePorts]
  rw [meets_iff]
  constructor
  · rintro ⟨_, ⟨e, he, port, hport, rfl⟩, hcovers⟩
    obtain ⟨hother, hend, hservice⟩ := (hrule e).mp ⟨port, hport, hcovers⟩
    exact ⟨hother, e, he, hend, hservice⟩
  · rintro ⟨hother, e, he, hend, hservice⟩
    obtain ⟨port, hport, hcovers⟩ := (hrule e).mpr ⟨hother, hend, hservice⟩
    exact ⟨_, ⟨e, he, port, hport, rfl⟩, hcovers⟩

/-- The accept rules of a rule towards an end. -/
theorem exists_acceptInto_iff {destination : Endpoint} {x : ResolvedRule} :
    (∃ y ∈ acceptInto destination x, y.Covers hosts k) ↔
      destination.covers hosts k.destination = true ∧ Meets hosts k x x.sources k.source :=
  exists_acceptRules_iff fun _ => exists_covers_iff.trans and_left_comm

/-- The accept rules of a rule that comes from an end. -/
theorem exists_acceptOutOf_iff {source : Endpoint} {x : ResolvedRule} :
    (∃ y ∈ acceptOutOf source x, y.Covers hosts k) ↔
      source.covers hosts k.source = true ∧ Meets hosts k x x.destinations k.destination :=
  exists_acceptRules_iff fun _ => exists_covers_iff

variable {protocol : Protocol} {port : Nat} (hpayload : k.payload = .transport protocol port)
include hpayload

/-- The accept rules of a machine cover what the machine admits. -/
theorem exists_memberAccepts_iff {m : MachineRules} :
    (∃ y ∈ memberAccepts m, y.Covers hosts k) ↔ Admits hosts k protocol port m := by
  unfold memberAccepts Admits
  generalize m.forward ++ m.egress = outward
  rw [exists_mem_flatMap]
  simp only [List.mem_append, or_and_right, exists_or, exists_mem_flatMap, exists_acceptInto_iff,
    exists_acceptOutOf_iff, Endpoint.covers, Block.contains_single, meets_iff_matches hpayload]
  constructor
  · rintro ⟨a, ha, ⟨x, hx, rfl, hmatches⟩ | ⟨x, hx, rfl, hmatches⟩⟩
    · exact Or.inl ⟨ha, x, hx, hmatches⟩
    · exact Or.inr ⟨ha, x, hx, hmatches⟩
  · rintro (⟨ha, x, hx, hmatches⟩ | ⟨ha, x, hx, hmatches⟩)
    · exact ⟨_, ha, Or.inl ⟨x, hx, rfl, hmatches⟩⟩
    · exact ⟨_, ha, Or.inr ⟨x, hx, rfl, hmatches⟩⟩

theorem any_serviceCovers_iff :
    ["ssh", "dns", "dhcp"].any (serviceCovers k) = true ↔ (protocol, port) ∈ ownServices := by
  simp [serviceCovers, hpayload, servicePorts, ownServices, or_assoc]

/-- The router's zone lets a new connection through if it is for an own service, a rule of the
router covers it, or another machine admits it. -/
theorem router_verdict? {g : Graph} {p : FirewallPlan}
    (harrival : k.arrival ∈ p.lanInterfaces ++ p.wanInterfaces) :
    ((Zone.router g p).verdict? hosts k = some .accept ∨
        (Zone.router g p).verdict? hosts k = some .drop) ∧
      ((Zone.router g p).verdict? hosts k = some .accept ↔ k.source ≠ markerSource ∧
        ((protocol, port) ∈ ownServices ∨
          (∃ x ∈ p.routerRules, x.Matches hosts x.sources k.source protocol port) ∨
          ∃ m ∈ p.members, Admits hosts k protocol port m)) := by
  have hrules : (Zone.router g p).rules.any (AcceptRule.covers hosts k) = true ↔
      (∃ x ∈ p.routerRules, x.Matches hosts x.sources k.source protocol port) ∨
        ∃ m ∈ p.members, Admits hosts k protocol port m := by
    simp only [List.any_eq_true, AcceptRule.covers_iff, Zone.router, List.mem_append,
      or_and_right, exists_or, exists_mem_flatMap, exists_acceptInto_iff, Endpoint.covers, true_and,
      exists_memberAccepts_iff hpayload, meets_iff_matches hpayload]
  unfold Zone.verdict?
  rw [if_pos (show k.arrival ∈ (Zone.router g p).interfaces from harrival)]
  rw [← hrules, ← any_serviceCovers_iff hpayload, ← Bool.or_eq_true]
  constructor
  · split
    · exact Or.inl rfl
    · exact Or.inr rfl
  · split
    · next hcovers => exact iff_of_true rfl hcovers
    · next hcovers => exact iff_of_false (by simp) hcovers

end Packets

/-! ## The packet filter -/

section Filter

variable {g : Graph} {p : FirewallPlan} {r : Ruleset} (hp : p.IsNamed)
  (hr : Ruleset.router? g p = .ok r)
include hp hr

variable (hosts : String → Address → Bool) {k : Packet} {protocol : Protocol} {port : Nat}
  (hpayload : k.payload = .transport protocol port) (hnew : k.established = false)
include hpayload hnew

omit hp hr in
/-- The rules of the router apply to a new connection on the loopback, to one for an own service
that arrives on an inner interface, and to what a rule of the router covers. -/
theorem exists_inputRules_iff {enter : String → Option Verdict} :
    (∃ q ∈ inputRules p, q.outcome hosts k enter = some .accept) ↔ k.arrival = "lo" ∨
      (k.arrival ∈ p.lanInterfaces ∧ (protocol, port) ∈ ownServices) ∨
      ∃ x ∈ p.routerRules, x.Matches hosts x.sources k.source protocol port := by
  have hbaseline : (∃ q ∈ inputBaseline, q.outcome hosts k enter = some .accept) ↔
      k.arrival = "lo" := by
    simp [inputBaseline, PacketRule.outcome, PacketRule.applies, Condition.met, hnew, hpayload]
  have hservices : ∀ iface, (∃ q ∈ lanServices iface, q.outcome hosts k enter = some .accept) ↔
      k.arrival = iface ∧ (protocol, port) ∈ ownServices := by
    intro iface
    cases protocol <;> simp [lanServices, PacketRule.outcome, PacketRule.applies, Condition.met,
      hpayload, PortSet.covers, PortSet.isAny, ownServices]
  have hrules : ∀ x : ResolvedRule,
      (∃ q ∈ acceptFrom inputChain x, q.outcome hosts k enter = some .accept) ↔
        x.Matches hosts x.sources k.source protocol port := by
    intro x
    rw [← meets_iff_matches hpayload]
    exact exists_outcome_iff fun _ => rfl
  unfold inputRules
  simp only [List.mem_append, or_and_right, exists_or, exists_mem_flatMap, hbaseline, hservices,
    hrules, or_assoc]
  refine or_congr_right (or_congr_left ?_)
  constructor
  · rintro ⟨iface, hiface, rfl, hown⟩
    exact ⟨hiface, hown⟩
  · rintro ⟨harrival, hown⟩
    exact ⟨_, harrival, rfl, hown⟩

/-- The packet filter lets a new connection to the router through if one of the rules of the router
applies to it, and drops it otherwise. -/
theorem verdict_inputChain :
    (r.loadedFilter.verdict hosts k inputChain = some .accept ∨
        r.loadedFilter.verdict hosts k inputChain = some .drop) ∧
      (r.loadedFilter.verdict hosts k inputChain = some .accept ↔ k.arrival = "lo" ∨
        (k.arrival ∈ p.lanInterfaces ∧ (protocol, port) ∈ ownServices) ∨
        ∃ x ∈ p.routerRules, x.Matches hosts x.sources k.source protocol port) := by
  have hpolicy : r.loadedFilter.policy? inputChain = some .drop := by
    rw [Table.policy?, Ruleset.loadedFilter, router?_eq_ok hr]
    rfl
  obtain ⟨depth, hdepth⟩ : ∃ depth, r.loadedFilter.chains.length = depth + 1 := by
    rw [Ruleset.loadedFilter, router?_eq_ok hr, routerFilter, List.length_append]
    exact ⟨_, Nat.add_right_comm 3 1 _⟩
  have haccepting : Accepting hosts k (r.loadedFilter.decision hosts k depth) (inputRules p) :=
    accepting_of_accept fun q hq => (chain_of_mem_inputRules hq).2
  have hverdict : r.loadedFilter.verdict hosts k inputChain =
      (walk hosts k (r.loadedFilter.decision hosts k depth) (inputRules p)).or (some .drop) := by
    rw [Table.verdict, hpolicy, hdepth, Table.decision, rulesOf_inputChain hp hr]
  rw [← exists_inputRules_iff hosts hpayload hnew, ← haccepting.walk_eq_some_iff, hverdict]
  rcases haccepting.walk_eq_none_or with h | h <;> simp [h]

end Filter

/-- The first packet of a remote access to the router of the listening lab. -/
def remoteAccess (arrival : String) : Packet where
  source := .ofOctets 192 0 2 1
  destination := .ofOctets 10 10 0 1
  payload := .transport .tcp 22
  arrival := arrival
  departure := ""
  established := false
  aboveLimit := false

/-- A router that has an outer interface alone, and no rules. -/
def outerLab : Description where
  servers := [("router", { types := ["router"], wan := [("eth1", {})] })]

end NetworkCompiler.Firewall
