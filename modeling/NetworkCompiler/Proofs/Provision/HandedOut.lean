import NetworkCompiler.Proofs.Firewall.Plans
import NetworkCompiler.Proofs.Topology.Assignments
import NetworkCompiler.Provision.Leases

/-!
# Addresses handed out

What a compiled network hands out on its inner side (`HandedOut`) : the gateways of its subnets, the
assigned addresses, and the range from which the router's address service serves guests. Nobody
declares a machine among the guests, so the range is everything between the guests' gateway and
the broadcast address (`offers_leaseConfig`).

`handedOut_outer_iff` says when an address of an outer interface is handed out under the
network-wide policy. It is never assigned, and never handed out where a subnet is declared beside
it; but blocks are chosen with an eye to declared subnets only, so without one it may be a gateway
or lie among the guests (`handedOut_outer_bare`).
-/

namespace NetworkCompiler

open Ipv4 (Address Block)

/-! ## Subnets and guests -/

/-- No machine of a described network is assigned an address among the guests. -/
theorem Topology.IsBuilt.role_ne_guest {name : String} {d : Description} {g : Graph}
    {s : Settings} {t : Topology} (hg : Graph.ofDescription name d s = .ok g) (h : t.IsBuilt g s)
    (hs : s.Valid) : ∀ a ∈ t.assignments, a.role ≠ .guest := by
  intro a ha hguest
  obtain ⟨x, -, hrole, hplace, -⟩ := h.isHostOf_of_mem hs ha
  obtain ⟨m, hm, hrouter, -⟩ := h.exists_machine_of_mem ha
  obtain ⟨n, hn, -, hvlan⟩ := mem_placementsOf.mp hplace
  obtain rfl : m = n := Option.some.inj (hm.symm.trans hn)
  obtain ⟨r, -, hr, hne⟩ := (Graph.isDeclared hg (List.mem_of_getElem? hm)).placed hrouter
  rw [hr, ← hrole, hguest] at hvlan
  exact hne (Option.some.inj hvlan)

/-- A block holds its gateway and whatever lies between it and the broadcast address. -/
theorem Topology.IsBuilt.contains_of_gateway_le {g : Graph} {s : Settings} {t : Topology}
    (h : t.IsBuilt g s) (hs : s.Valid) {x : Subnet} (hx : x ∈ t.subnets) {a : Address}
    (ha : a = x.gateway ∨ x.gateway < a ∧ a < x.net.broadcast) : x.net.contains a = true := by
  rcases ha with rfl | ⟨hlo, hhi⟩
  · exact h.allocations.contains_gateway hs hx
  · exact h.allocations.contains_of_between hs hx hlo hhi

namespace Provision

/-- With room behind `start` the range begins right there and goes up to the broadcast address. -/
theorem rangeAfter_eq_some {b : Block} {start : Address}
    (h : start.value + 1 < b.broadcast.value) :
    ∃ first last, rangeAfter b start = some (first, last) ∧
      first.value = start.value + 1 ∧ last.value + 1 = b.broadcast.value := by
  have hlast := b.broadcast.value_lt
  have hcount : b.hostCountAfter start = b.broadcast.value - (start.value + 1) := rfl
  have hone : min 1 (b.hostCountAfter start) = 1 := by omega
  have hvalue : ∀ v < 0x100000000, (Address.ofNat v).value = v := fun _ => Nat.mod_eq_of_lt
  refine ⟨Address.ofNat (start.value + 1), Address.ofNat (start.value + b.hostCountAfter start),
    ?_, ?_, ?_⟩
  · rw [rangeAfter, Block.firstHostsAfter, hone]
    rfl
  · exact hvalue _ (by omega)
  · rw [hvalue _ (by omega)]
    omega

/-- The guests' subnet has a range, and it is everything between the gateway and the broadcast
address, because no address in it is assigned. -/
theorem exists_range_of_guest {name : String} {d : Description} {g : Graph} {s : Settings}
    {t : Topology} (hg : Graph.ofDescription name d s = .ok g) (h : t.IsBuilt g s) (hs : s.Valid)
    {x : Subnet} (hx : x ∈ t.subnets) (hguest : x.role = .guest) :
    ∃ first last, (leaseSubnet t x).range = some (first, last) ∧
      first.value = x.gateway.value + 1 ∧ last.value + 1 = x.net.broadcast.value := by
  obtain ⟨hlength, hgateway⟩ := h.gateway_value hs hx
  have hsize := Block.four_le_size hlength
  have hnone : (t.assignments.filter fun b => b.role = .guest) = [] :=
    List.filter_eq_nil_iff.mpr fun b hb => by simpa using h.role_ne_guest hg hs b hb
  have hlast : lastGuest t x = x.gateway := by rw [lastGuest, hnone, List.map_nil]
  rw [leaseSubnet, if_pos hguest, hlast]
  exact rangeAfter_eq_some (by rw [Block.broadcast_value]; omega)

/-- Whether an address may be given to anyone. -/
def LeaseConfig.Offers (c : LeaseConfig) (a : Address) : Prop :=
  ∃ x ∈ c.subnets, ∃ first last, x.range = some (first, last) ∧
    first.value ≤ a.value ∧ a.value ≤ last.value

/-- An address that a network hands out on its inner side. -/
inductive HandedOut (c : Context) (a : Address) : Prop where
  | gateway {x : Subnet} : x ∈ c.topology.subnets → x.gateway = a → HandedOut c a
  | assigned {b : Assignment} : b ∈ c.topology.assignments → b.address = a → HandedOut c a
  | offered : (leaseConfig c).Offers a → HandedOut c a

section Compiled

variable {name : String} {d : Description} {s : Settings} {n : CompiledNetwork} {c : Context}
variable (hs : s.Valid) (hn : (CompiledNetwork.ofDescription name d s).result = .ok n)
  (hc : c.network = n)
include hs hn hc

/-- What may be given to anyone lies between the guests' gateway and their broadcast address. -/
theorem offers_leaseConfig {a : Address} :
    (leaseConfig c).Offers a ↔
      ∃ x ∈ n.topology.subnets, x.role = .guest ∧ x.gateway < a ∧ a < x.net.broadcast := by
  obtain ⟨hg, ht, -⟩ := CompiledNetwork.ofDescription_eq_ok hn
  have h := Topology.isBuilt_of_ofGraph ht
  subst hc
  constructor
  · rintro ⟨y, hy, first, last, hy', hfirst, hlast⟩
    obtain ⟨x, hx, rfl⟩ := List.mem_map.mp hy
    have hguest : x.role = .guest := by
      by_contra hne
      rw [leaseSubnet, if_neg hne] at hy'
      cases hy'
    obtain ⟨first', last', hx', hfirst', hlast'⟩ := exists_range_of_guest hg h hs hx hguest
    cases hx'.symm.trans hy'
    exact ⟨x, hx, hguest, show x.gateway.value < a.value by omega,
      show a.value < x.net.broadcast.value by omega⟩
  · rintro ⟨x, hx, hguest, hlo, hhi⟩
    have hlo : x.gateway.value < a.value := hlo
    have hhi : a.value < x.net.broadcast.value := hhi
    obtain ⟨first, last, hx', hfirst, hlast⟩ := exists_range_of_guest hg h hs hx hguest
    exact ⟨_, List.mem_map_of_mem hx, first, last, hx', by omega, by omega⟩

end Compiled

/-- Under the network-wide policy the address of an outer interface is never assigned to an inner
one. It is handed out exactly if no subnet is declared beside it and it is a gateway or lies among
the guests. Only the outer interfaces of a router that is connected statically have addresses, the
ones that its entry gives them. -/
theorem handedOut_outer_iff (name : String) (d : Description) (s : Settings) (hs : s.Valid)
    (hpolicy : s.policy = .networkWide) (n : CompiledNetwork)
    (hn : (CompiledNetwork.ofDescription name d s).result = .ok n) (c : Context)
    (hc : c.network = n) :
    (∀ m ∈ n.graph.machines, ∀ i ∈ m.wan, ∀ a ∈ i.addresses,
      (∀ b ∈ n.topology.assignments, b.address ≠ a) ∧
      (HandedOut c a ↔ i.subnet = none ∧ ∃ x ∈ n.topology.subnets,
        a = x.gateway ∨ x.role = .guest ∧ x.gateway < a ∧ a < x.net.broadcast)) ∧
    ∀ label e, (label, e) ∈ d.servers → ∃ m ∈ n.graph.machines, m.label = label ∧
      (m.wanConnection = some .static ↔ m.isRouter = true ∧ e.extConnection = some "static") ∧
      List.Forall₂ (IsOuterOf m) e.wan m.wan := by
  obtain ⟨hg, ht, -⟩ := CompiledNetwork.ofDescription_eq_ok hn
  have h := Topology.isBuilt_of_ofGraph ht
  refine ⟨fun m hm i hi a ha => ?_, fun label e he => Graph.exists_outer hg he⟩
  have hassigned := h.address_ne_outer hm hi ha hpolicy
  refine ⟨hassigned, ?_⟩
  have hsubnet : ∀ x ∈ n.topology.subnets, a = x.gateway ∨
      x.role = .guest ∧ x.gateway < a ∧ a < x.net.broadcast → i.subnet = none := by
    intro x hx hplace
    have hcontains := h.contains_of_gateway_le hs hx (hplace.imp_right And.right)
    by_contra hdeclared
    have hout := h.not_contains_outer hm hi ha (Graph.legal_of_mem_wan hg hm hi) hdeclared x hx
    rw [hcontains] at hout
    cases hout
  constructor
  · rintro (⟨hx, rfl⟩ | ⟨hb, hba⟩ | hoffers)
    · subst hc
      exact ⟨hsubnet _ hx (.inl rfl), _, hx, .inl rfl⟩
    · subst hc
      exact absurd hba (hassigned _ hb)
    · obtain ⟨x, hx, hplace⟩ := (offers_leaseConfig hs hn hc).mp hoffers
      exact ⟨hsubnet x hx (.inr hplace), x, hx, .inr hplace⟩
  · rintro ⟨-, x, hx, rfl | hplace⟩
    · subst hc
      exact .gateway hx rfl
    · exact .offered ((offers_leaseConfig hs hn hc).mpr ⟨x, hx, hplace⟩)

/-- A router with three outer addresses : only the last has a subnet beside it. -/
def outerLab : Description where
  domain := some "lan"
  autoguest := true
  servers := [
    ("router", { types := ["router"], extConnection := some "static", wan := [
      ("eth1", { address := some "10.250.0.1", gateway := some "10.250.0.254" }),
      ("eth2", { address := some "10.250.0.9", gateway := some "10.250.0.254" }),
      ("eth3", { address := some "192.0.2.2", subnet := some "24",
                 gateway := some "192.0.2.1" })] })]

theorem handedOut_outer_iff_lab :
    Settings.default.Valid ∧ Settings.default.policy = .networkWide ∧
      ∃ n, (CompiledNetwork.ofDescription "lab" outerLab .default).result = .ok n ∧
        ∃ m ∈ n.graph.machines, ∃ i ∈ m.wan, i.addresses = [.ofOctets 192 0 2 2] ∧
          ∀ c : Context, c.network = n → ¬HandedOut c (.ofOctets 192 0 2 2) := by
  have hvalid : Settings.default.Valid := by decide
  have hlab : (CompiledNetwork.ofDescription "lab" outerLab .default).result.map (fun n =>
      decide (∃ m ∈ n.graph.machines, ∃ i ∈ m.wan,
        i.addresses = [.ofOctets 192 0 2 2] ∧ i.subnet ≠ none)) = .ok true := by
    decide +kernel
  obtain ⟨n, hn, hlab⟩ := map_eq_ok.mp hlab
  obtain ⟨m, hm, i, hi, ha, hsubnet⟩ := of_decide_eq_true hlab
  refine ⟨hvalid, rfl, n, hn, m, hm, i, hi, ha, fun c hc hout => ?_⟩
  have hiff := ((handedOut_outer_iff "lab" outerLab .default hvalid rfl n hn c hc).1 m hm i hi _
    (ha ▸ List.mem_singleton_self _)).2
  exact hsubnet (hiff.mp hout).1

/-- Without a subnet beside them, the address of one outer interface is the guests' gateway, and
that of another one may be given to a guest. -/
theorem handedOut_outer_bare :
    Settings.default.Valid ∧ Settings.default.policy = .networkWide ∧
      ∃ n, (CompiledNetwork.ofDescription "lab" outerLab .default).result = .ok n ∧
        (∃ m ∈ n.graph.machines, ∃ i ∈ m.wan, .ofOctets 10 250 0 1 ∈ i.addresses ∧
          ∃ x ∈ n.topology.subnets, x.gateway = .ofOctets 10 250 0 1) ∧
        (∃ m ∈ n.graph.machines, ∃ i ∈ m.wan, .ofOctets 10 250 0 9 ∈ i.addresses ∧
          ∀ c : Context, c.network = n → (leaseConfig c).Offers (.ofOctets 10 250 0 9)) := by
  have hvalid : Settings.default.Valid := by decide
  have hlab : (CompiledNetwork.ofDescription "lab" outerLab .default).result.map (fun n =>
      decide ((∃ m ∈ n.graph.machines, ∃ i ∈ m.wan, .ofOctets 10 250 0 1 ∈ i.addresses) ∧
        (∃ m ∈ n.graph.machines, ∃ i ∈ m.wan, .ofOctets 10 250 0 9 ∈ i.addresses) ∧
        ∃ x ∈ n.topology.subnets, x.role = .guest ∧ x.gateway = .ofOctets 10 250 0 1 ∧
          x.gateway < .ofOctets 10 250 0 9 ∧ .ofOctets 10 250 0 9 < x.net.broadcast)) =
        .ok true := by
    decide +kernel
  obtain ⟨n, hn, hlab⟩ := map_eq_ok.mp hlab
  obtain ⟨⟨m, hm, i, hi, ha⟩, ⟨m', hm', i', hi', ha'⟩, x, hx, hguest, hgateway, hrange⟩ :=
    of_decide_eq_true hlab
  exact ⟨hvalid, rfl, n, hn, ⟨m, hm, i, hi, ha, x, hx, hgateway⟩, m', hm', i', hi', ha',
    fun c hc => (offers_leaseConfig hvalid hn hc).mpr ⟨x, hx, hguest, hrange⟩⟩

end Provision

end NetworkCompiler
