import NetworkCompiler.Proofs.Firewall.Grants
import NetworkCompiler.Proofs.Firewall.OpenPorts

/-!
# Address translations

What the two firewalls of the router do to the destination of a connection (`Translation`), as it
is read off the rules of a table (`Table.Translates`) and off the forwards of a zone
(`Zone.Translates`). Both start from the redirections of the plan (`natTable_translates_iff`,
`router_translates_iff`), but they part on three points. A table writes a redirection for traffic
from outside once for each outer interface, and once for any interface where there is none; a zone
holds for all its interfaces, the inner ones too. A table takes the empty set of ports for every
port; a zone has no forward for it. `translations_agree_iff` : these are all the differences.
-/

namespace NetworkCompiler.Firewall

open Ipv4 (Address Block)

/-- What arrives on an interface for a destination, over a protocol and on one port or on any, goes
to a target instead. -/
structure Translation where
  arrival : String
  destination : Endpoint
  protocol : Protocol
  port : Option Nat
  target : Address

/-! ## Tables and zones -/

/-- The interface that a condition asks a packet to arrive on. -/
def Condition.arrival? : Condition → Option String
  | into iface => some iface
  | _ => none

/-- A rule that makes a translation. -/
structure PacketRule.Translates (q : PacketRule) (x : Translation) : Prop where
  verdict_eq : q.verdict = .redirect x.target
  arrives : ∀ iface ∈ q.conditions.filterMap Condition.arrival?, x.arrival = iface
  destination_eq : endOf? (q.conditions.filterMap Condition.destination?) = some x.destination
  service_eq : ∃ ports, q.conditions.filterMap Condition.service? = [(x.protocol, ports)] ∧
    ports.Names x.port
  /-- It asks for nothing else. -/
  asks : ∀ c ∈ q.conditions,
    c.arrival?.isSome ∨ c.destination?.isSome ∨ c.service?.isSome

/-- A table that makes a translation, before packets are routed. -/
def Table.Translates (t : Table) (x : Translation) : Prop :=
  ∃ q ∈ t.rulesOf "PREROUTING", q.Translates x

/-- A zone that makes a translation. Its forwards hold for all its interfaces. -/
def Zone.Translates (z : Zone) (x : Translation) : Prop :=
  x.arrival ∈ z.interfaces ∧
    ∃ port, x.port = some port ∧ ⟨port, x.protocol, x.target, x.destination⟩ ∈ z.forwards

/-! ## Plans -/

/-- A redirection that asks for a translation, whatever interface it is on. -/
structure Asks (d : Redirect) (x : Translation) : Prop where
  destination_mem : x.destination ∈ d.destinations
  protocol_eq : d.protocol = x.protocol
  names_port : d.ports.Names x.port
  target_eq : d.target = x.target

/-- A plan that asks for a translation. What is redirected for traffic from outside has to arrive
on an outer interface. -/
def AskedFor (p : FirewallPlan) (x : Translation) : Prop :=
  ∃ d ∈ p.redirects, Asks d x ∧ (d.fromOutside = true → x.arrival ∈ p.wanInterfaces)

/-- A plan that asks for a translation on its outer interfaces. -/
def AskedOutside (p : FirewallPlan) (x : Translation) : Prop :=
  ∃ d ∈ p.redirects, Asks d x ∧ d.fromOutside = true

section Plan

variable {g : Graph} {p : FirewallPlan} {d : Redirect} {x : Translation}

/-! ## The table -/

theorem translates_iff {chain : String} {iface : Option String} {e : Endpoint}
    {protocol : Protocol} {ports : PortSet} {target : Address} :
    (⟨chain, iface.toList.map .into ++ [.destination e, .service protocol ports],
        .redirect target⟩ : PacketRule).Translates x ↔
      (∀ i ∈ iface, x.arrival = i) ∧ e = x.destination ∧ protocol = x.protocol ∧
        ports.Names x.port ∧ target = x.target := by
  constructor
  · rintro ⟨hverdict, harrives, hdestination, ⟨found, hservice, hport⟩, -⟩
    have hservice : (protocol, ports) = (x.protocol, found) := by
      cases iface <;> exact (List.cons.inj hservice).1
    have hend : e = x.destination := by
      cases iface <;> exact Option.some.inj hdestination
    have htarget : target = x.target := by
      simpa using hverdict
    obtain ⟨hprotocol, rfl⟩ := Prod.mk.inj hservice
    refine ⟨?_, hend, hprotocol, hport, htarget⟩
    intro i hi
    cases hi
    exact harrives i List.mem_cons_self
  · rintro ⟨harrives, rfl, rfl, hport, rfl⟩
    constructor
    · rfl
    · intro i hi
      cases iface with
      | none => cases hi
      | some j =>
        rw [List.mem_singleton.mp hi]
        exact harrives j rfl
    · cases iface <;> rfl
    · exact ⟨ports, by cases iface <;> rfl, hport⟩
    · intro c hc
      simp only [List.mem_append, List.mem_map, List.mem_cons, List.not_mem_nil, or_false] at hc
      rcases hc with ⟨i, -, rfl⟩ | rfl | rfl
      · exact Or.inl rfl
      · exact Or.inr (Or.inl rfl)
      · exact Or.inr (Or.inr rfl)

/-- A redirection is tied to the outer interfaces if it is for traffic from outside, unless there
are none. -/
theorem exists_redirectInterfaces_iff {arrival : String} :
    (∃ iface ∈ redirectInterfaces p d, ∀ i ∈ iface, arrival = i) ↔
      (d.fromOutside = true → arrival ∈ p.wanInterfaces ∨ p.wanInterfaces = []) := by
  unfold redirectInterfaces
  cases houtside : d.fromOutside with
  | false => simp
  | true =>
    cases hwan : p.wanInterfaces with
    | nil => simp
    | cons w ws => simp [eq_comm]

/-- The rules that the table has before packets are routed are those of the redirections. -/
theorem rulesOf_prerouting :
    (natTable p).rulesOf "PREROUTING" = p.redirects.flatMap (redirectRules p) := by
  have hredirects : ∀ q ∈ p.redirects.flatMap (redirectRules p), q.chain = "PREROUTING" := by
    intro q hq
    obtain ⟨d, -, hq⟩ := List.mem_flatMap.mp hq
    obtain ⟨iface, -, hq⟩ := List.mem_flatMap.mp hq
    obtain ⟨e, -, rfl⟩ := List.mem_map.mp hq
    rfl
  have houter : ∀ q ∈ p.wanInterfaces.map fun w =>
      (⟨"POSTROUTING", [.outOf w], .masquerade⟩ : PacketRule), q.chain ≠ "PREROUTING" := by
    intro q hq
    obtain ⟨w, -, rfl⟩ := List.mem_map.mp hq
    simp
  rw [Table.rulesOf, natTable, List.filter_append, filter_chain_eq_self hredirects,
    filter_chain_eq_nil houter, List.append_nil]

theorem exists_redirectRules_iff :
    (∃ q ∈ redirectRules p d, q.Translates x) ↔
      Asks d x ∧ (d.fromOutside = true → x.arrival ∈ p.wanInterfaces ∨ p.wanInterfaces = []) := by
  rw [← exists_redirectInterfaces_iff]
  unfold redirectRules
  constructor
  · rintro ⟨q, hq, htranslates⟩
    obtain ⟨iface, hiface, hq⟩ := List.mem_flatMap.mp hq
    obtain ⟨e, he, rfl⟩ := List.mem_map.mp hq
    obtain ⟨harrives, rfl, hprotocol, hport, htarget⟩ := translates_iff.mp htranslates
    exact ⟨⟨he, hprotocol, hport, htarget⟩, iface, hiface, harrives⟩
  · rintro ⟨hasks, iface, hiface, harrives⟩
    refine ⟨_, List.mem_flatMap.mpr ⟨iface, hiface,
      List.mem_map_of_mem hasks.destination_mem⟩, translates_iff.mpr ?_⟩
    exact ⟨harrives, rfl, hasks.protocol_eq, hasks.names_port, hasks.target_eq⟩

/-- The table translates what the plan asks for. Where there is no outer interface, it translates
what is asked for outside on every interface. -/
theorem natTable_translates_iff :
    (natTable p).Translates x ↔ AskedFor p x ∨ (p.wanInterfaces = [] ∧ AskedOutside p x) := by
  have hredirects : (natTable p).Translates x ↔ ∃ d ∈ p.redirects, Asks d x ∧
      (d.fromOutside = true → x.arrival ∈ p.wanInterfaces ∨ p.wanInterfaces = []) := by
    rw [Table.Translates, rulesOf_prerouting, exists_mem_flatMap]
    simp only [exists_redirectRules_iff]
  rw [hredirects]
  constructor
  · rintro ⟨d, hd, hasks, harrives⟩
    by_cases houter : d.fromOutside = true → x.arrival ∈ p.wanInterfaces
    · exact Or.inl ⟨d, hd, hasks, houter⟩
    · obtain ⟨houtside, hinner⟩ := Classical.not_imp.mp houter
      exact Or.inr ⟨(harrives houtside).resolve_left hinner, d, hd, hasks, houtside⟩
  · rintro (⟨d, hd, hasks, houter⟩ | ⟨hnone, d, hd, hasks, -⟩)
    · exact ⟨d, hd, hasks, fun houtside => Or.inl (houter houtside)⟩
    · exact ⟨d, hd, hasks, fun _ => Or.inr hnone⟩

/-! ## The zone -/

theorem exists_portForwards_iff :
    (∃ port, x.port = some port ∧ ⟨port, x.protocol, x.target, x.destination⟩ ∈ portForwards d) ↔
      Asks d x ∧ x.port ≠ none := by
  simp only [portForwards, List.mem_flatMap, List.mem_map, PortForward.mk.injEq]
  constructor
  · rintro ⟨port, hport, e, he, n, hn, rfl, hprotocol, htarget, rfl⟩
    exact ⟨⟨he, hprotocol, Or.inr ⟨n, hn, hport⟩, htarget⟩, by simp [hport]⟩
  · rintro ⟨hasks, hsome⟩
    rcases hasks.names_port with ⟨-, hnone⟩ | ⟨n, hn, hport⟩
    · exact absurd hnone hsome
    · exact ⟨n, hport, _, hasks.destination_mem, n, hn, rfl, hasks.protocol_eq,
        hasks.target_eq, rfl⟩

/-- The zone translates, on all its interfaces, what any redirection of the plan asks for on a
port. -/
theorem router_translates_iff :
    (Zone.router g p).Translates x ↔ x.arrival ∈ p.lanInterfaces ++ p.wanInterfaces ∧
      x.port ≠ none ∧ (AskedFor p x ∨ AskedOutside p x) := by
  have hasked : AskedFor p x ∨ AskedOutside p x ↔ ∃ d ∈ p.redirects, Asks d x := by
    constructor
    · rintro (⟨d, hd, hasks, -⟩ | ⟨d, hd, hasks, -⟩)
      · exact ⟨d, hd, hasks⟩
      · exact ⟨d, hd, hasks⟩
    · rintro ⟨d, hd, hasks⟩
      cases houtside : d.fromOutside with
      | false => exact Or.inl ⟨d, hd, hasks, by simp [houtside]⟩
      | true => exact Or.inr ⟨d, hd, hasks, houtside⟩
  have hforwards : (∃ port, x.port = some port ∧
      ⟨port, x.protocol, x.target, x.destination⟩ ∈ p.redirects.flatMap portForwards) ↔
        ∃ d ∈ p.redirects, Asks d x ∧ x.port ≠ none := by
    simp only [← exists_portForwards_iff, List.mem_flatMap]
    constructor
    · rintro ⟨port, hport, d, hd, hforward⟩
      exact ⟨d, hd, port, hport, hforward⟩
    · rintro ⟨d, hd, port, hport, hforward⟩
      exact ⟨port, hport, d, hd, hforward⟩
  unfold Zone.Translates Zone.router
  rw [hforwards, hasked]
  constructor
  · rintro ⟨harrival, d, hd, hasks, hsome⟩
    exact ⟨harrival, hsome, d, hd, hasks⟩
  · rintro ⟨harrival, hsome, d, hd, hasks⟩
    exact ⟨harrival, d, hd, hasks, hsome⟩

end Plan

/-- The redirections to the server of the lab that listens on a TCP port : the declared one, and
the one from its outer address. -/
def webRedirect (external : Address) (fromOutside : Bool) : Redirect where
  owner := "web"
  protocol := .tcp
  destinations := [.net (Block.single external)]
  ports := ⟨[443]⟩
  target := .ofOctets 10 10 0 3
  fromOutside := fromOutside

/-- What arrives on an interface for the outer address of that server. -/
def webTranslation (arrival : String) : Translation where
  arrival := arrival
  destination := .net (Block.single (.ofOctets 203 0 113 7))
  protocol := .tcp
  port := some 443
  target := .ofOctets 10 10 0 3

/-- What arrives from outside for the outer address of the server that listens on no TCP port. -/
def openTranslation : Translation where
  arrival := "eth1"
  destination := .net (Block.single (.ofOctets 203 0 113 8))
  protocol := .tcp
  port := none
  target := .ofOctets 10 10 0 2

theorem plan_exposedLab :
    ∃ n r, (CompiledNetwork.ofDescription "lab" exposedLab .default).result = .ok n ∧
      Ruleset.router? n.graph n.firewall = .ok r ∧
      n.firewall.redirects = [openRedirect, webRedirect (.ofOctets 203 0 113 9) false,
        webRedirect (.ofOctets 203 0 113 7) true] ∧
      n.firewall.lanInterfaces = ["servers"] ∧ n.firewall.wanInterfaces = ["eth1"] := by
  have hplan : ((CompiledNetwork.ofDescription "lab" exposedLab .default).result >>= fun n =>
      ((Ruleset.router? n.graph n.firewall).mapError Failure.compile).map fun _ =>
        (n.firewall.redirects, n.firewall.lanInterfaces, n.firewall.wanInterfaces)) =
      .ok ([openRedirect, webRedirect (.ofOctets 203 0 113 9) false,
        webRedirect (.ofOctets 203 0 113 7) true], ["servers"], ["eth1"]) := by
    decide +kernel
  obtain ⟨n, hn, hplan⟩ := bind_eq_ok.mp hplan
  obtain ⟨r, hr, hplan⟩ := map_eq_ok.mp hplan
  simp only [Prod.mk.injEq] at hplan
  exact ⟨n, r, hn, mapError_eq_ok.mp hr, hplan⟩

theorem asks_webRedirect {arrival : String} :
    Asks (webRedirect (.ofOctets 203 0 113 7) true) (webTranslation arrival) := by
  constructor
  · exact List.mem_cons_self
  · rfl
  · exact Or.inr ⟨443, List.mem_cons_self, rfl⟩
  · rfl

end NetworkCompiler.Firewall
