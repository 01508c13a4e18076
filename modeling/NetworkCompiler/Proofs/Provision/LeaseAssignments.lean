import NetworkCompiler.Proofs.Provision.HandedOut
import NetworkCompiler.Proofs.Provision.LeaseFiles
import NetworkCompiler.Proofs.Provision.RenderedAddresses

/-!
# Reservations match assignments

The reservations of the address service are the assignments of a compiled network, one each, and
its blocks are the subnets. A reserved address lies in one block and has a place of its own there,
and the range for guests keeps away from whatever is taken (`Topology.IsBuilt.apart_of_guest`),
because nobody who is declared is placed among the guests. `leases_match_assignments` puts this
together with what is read off the file.

The domain of a network is written between quotes as it is. The file is read as what the
configuration says exactly if the domain may stand there, and a domain with a quote of its own can
go on with a host that reserves an assigned address once more (`reservation_doubled`).
-/

namespace NetworkCompiler

open Ipv4 (Address Block)

/-! ## Subnets and addresses -/

namespace Topology.IsBuilt

variable {g : Graph} {s : Settings} {t : Topology} {x : Subnet} {a : Address}
variable (h : t.IsBuilt g s)
include h

/-- An address of a subnet lies in no other. -/
theorem filter_contains (hx : x ∈ t.subnets) (ha : x.net.contains a = true) :
    (t.subnets.filter fun y => y.net.contains a) = [x] := by
  have hsame : (t.subnets.filter fun y => y.net.contains a) =
      t.subnets.filter fun y => y.role = x.role := by
    refine List.filter_congr fun y hy => Bool.eq_iff_iff.mpr ?_
    rw [decide_eq_true_eq]
    constructor
    · intro hya
      rw [h.allocations.eq_of_contains hx hy ha hya]
    · intro hrole
      rwa [List.inj_on_of_nodup_map h.nodup_roles hy hx hrole]
  rw [hsame]
  exact filter_of_nodup_key h.nodup_roles hx

variable (hs : s.Valid)
include hs

/-- An address behind the gateway of the guests, in front of their broadcast address, is a host
that nobody has. -/
theorem apart_of_guest {name : String} {d : Description}
    (hg : Graph.ofDescription name d s = .ok g) (hx : x ∈ t.subnets) (hguest : x.role = .guest)
    (hlo : x.gateway < a) (hhi : a < x.net.broadcast) :
    isHostOf x.net a = true ∧ (∀ y ∈ t.subnets, a ≠ y.gateway ∧ a ≠ y.net.broadcast) ∧
      ∀ b ∈ t.assignments, a ≠ b.address := by
  have hcontains := h.contains_of_gateway_le hs hx (.inr ⟨hlo, hhi⟩)
  obtain ⟨-, hgateway⟩ := h.gateway_value hs hx
  have hlo : x.gateway.value < a.value := hlo
  have hhi : a.value < x.net.broadcast.value := hhi
  refine ⟨?_, fun y hy => ⟨?_, ?_⟩, fun b hb => ?_⟩
  · have hnetwork : a ≠ x.net.network := fun heq => by rw [heq] at hlo; omega
    have hbroadcast : a ≠ x.net.broadcast := fun heq => by rw [heq] at hhi; omega
    simp [isHostOf, hcontains, hnetwork, hbroadcast]
  · rintro rfl
    rw [h.allocations.eq_of_contains hx hy hcontains (h.allocations.contains_gateway hs hy)] at hlo
    omega
  · rintro rfl
    rw [h.allocations.eq_of_contains hx hy hcontains y.net.contains_broadcast] at hhi
    omega
  · rintro rfl
    obtain ⟨y, hy, hrole, -, hhost⟩ := h.isHostOf_of_mem hs hb
    rw [← h.allocations.eq_of_contains hx hy hcontains (contains_of_isHostOf hhost)] at hrole
    exact h.role_ne_guest hg hs b hb (hrole.trans hguest)

end Topology.IsBuilt

namespace Provision

open LeaseFile (IsQuotable Item items? hosts?)

section Compiled

variable {name : String} {d : Description} {s : Settings} {n : CompiledNetwork}
variable (hn : (CompiledNetwork.ofDescription name d s).result = .ok n)
variable {secrets : Secrets} {c : Context} (hc : c ∈ managedContexts n secrets)
include hn hc

/-- The names in a configuration are words if those of the interfaces are. -/
theorem isBare_leaseConfig (hifaces : ∀ a ∈ n.topology.assignments, LeaseFile.IsBare a.iface) :
    (leaseConfig c).IsBare := by
  obtain ⟨hg, ht, -⟩ := CompiledNetwork.ofDescription_eq_ok hn
  obtain ⟨rfl, hm, -⟩ := mem_managedContexts hc
  have h := Topology.isBuilt_of_ofGraph ht
  refine ⟨Graph.isLine_label hg (List.mem_of_getElem? hm), fun l hl => ?_, fun l hl => ?_⟩
  · obtain ⟨a, ha, rfl⟩ := Topology.mem_leases hl
    obtain ⟨m, hm', -⟩ := h.exists_machine_of_mem ha
    rw [show a.lease c.graph = _ from Assignment.lease_eq hm']
    exact LeaseFile.isBare_of_isLabel (Graph.isLabel_of_mem hg (List.mem_of_getElem? hm'))
  · obtain ⟨a, ha, rfl⟩ := Topology.mem_leases hl
    exact hifaces a ha

/-- Every assignment is a reservation, for an address in one of the blocks that is neither at an
end of it nor its gateway. -/
theorem exists_leaseSubnet (hs : s.Valid) {a : Assignment} (ha : a ∈ n.topology.assignments) :
    ∃ m x, n.graph.machine? a.machine = some m ∧ n.topology.subnetOf? a.machine = some x ∧
      a.lease n.graph = ⟨m.label, a.iface, a.mac, a.address, x.role⟩ ∧
      ((leaseConfig c).subnets.filter fun y => y.net.contains a.address) =
        [leaseSubnet n.topology x] ∧
      a.address ≠ x.net.network ∧ a.address ≠ x.gateway ∧ a.address ≠ x.net.broadcast := by
  obtain ⟨-, ht, -⟩ := CompiledNetwork.ofDescription_eq_ok hn
  obtain ⟨rfl, -⟩ := mem_managedContexts hc
  have h := Topology.isBuilt_of_ofGraph ht
  obtain ⟨m, hm, -⟩ := h.exists_machine_of_mem ha
  obtain ⟨x, hx, hrole, hplace, hhost⟩ := h.isHostOf_of_mem hs ha
  have hlease : a.lease c.network.graph = ⟨m.label, a.iface, a.mac, a.address, x.role⟩ :=
    hrole ▸ Assignment.lease_eq hm
  have hblocks : ((c.network.topology.subnets.map (leaseSubnet c.network.topology)).filter
      fun y => y.net.contains a.address) = [leaseSubnet c.network.topology x] := by
    rw [List.filter_map]
    exact congrArg (List.map (leaseSubnet c.network.topology))
      (h.filter_contains hx (contains_of_isHostOf hhost))
  have hgateway : a.address ≠ x.gateway := fun heq =>
    (List.nodup_append.mp (h.nodup_addresses hs)).2.2 _ (List.mem_map_of_mem hx) _
      (List.mem_map_of_mem ha) heq.symm
  simp only [isHostOf, Bool.and_eq_true, decide_eq_true_eq] at hhost
  exact ⟨m, x, hm, h.subnetOf?_eq_some hx hplace, hlease, hblocks, hhost.1.2, hgateway, hhost.2⟩

omit hc in
/-- The range of the guests has addresses, and all of them are hosts that nobody has. -/
theorem exists_range_apart (hs : s.Valid) {x : Subnet} (hx : x ∈ n.topology.subnets)
    (hguest : x.role = .guest) :
    ∃ first last, (leaseSubnet n.topology x).range = some (first, last) ∧
      first.value ≤ last.value ∧
      ∀ b : Address, first.value ≤ b.value → b.value ≤ last.value → isHostOf x.net b = true ∧
        (∀ y ∈ n.topology.subnets, b ≠ y.gateway ∧ b ≠ y.net.broadcast) ∧
        ∀ l ∈ n.topology.leases n.graph, b ≠ l.address := by
  obtain ⟨hg, ht, -⟩ := CompiledNetwork.ofDescription_eq_ok hn
  have h := Topology.isBuilt_of_ofGraph ht
  obtain ⟨first, last, hrange, hfirst, hlast⟩ := exists_range_of_guest hg h hs hx hguest
  obtain ⟨hlength, hgateway⟩ := h.gateway_value hs hx
  have hsize := Block.four_le_size hlength
  have hbroadcast := x.net.broadcast_value
  refine ⟨first, last, hrange, by omega, fun b hlo hhi => ?_⟩
  obtain ⟨hhost, hapart, hassigned⟩ := h.apart_of_guest hs hg hx hguest
    (show x.gateway.value < b.value by omega) (show b.value < x.net.broadcast.value by omega)
  refine ⟨hhost, hapart, fun l hl => ?_⟩
  obtain ⟨a, ha, rfl⟩ := Topology.mem_leases hl
  exact hassigned a ha

end Compiled

/-- The reservations of the address service are the assignments of a compiled network, each of them
once and nothing else. No two have one address; no two have one hardware address if those that are
made up never run out. Every reserved address lies in one block of a subnet, the one in which its
machine is placed, and is neither the first nor the last address of it nor its gateway. Only the
guests' block has a range; that has addresses, all of them hosts of the block, and none of them is
the gateway or the broadcast address of any subnet, or reserved.

If the names of the interfaces are words, the file is read as these blocks, these reservations and
nothing else exactly if the domain may stand between quotes. -/
theorem leases_match_assignments (name : String) (d : Description) (s : Settings) (hs : s.Valid)
    (n : CompiledNetwork) (hn : (CompiledNetwork.ofDescription name d s).result = .ok n)
    (secrets : Secrets) (c : Context) (hc : c ∈ managedContexts n secrets) :
    (leaseConfig c).reservations = n.topology.leases n.graph ∧
    (n.topology.leases n.graph).Perm (n.topology.assignments.map fun a => a.lease n.graph) ∧
    ((n.topology.leases n.graph).map (·.address)).Nodup ∧
    (n.topology.HasSpareCandidates n.graph (Mac.derived s.macVendor) →
      ((n.topology.leases n.graph).map (·.mac)).Nodup) ∧
    (∀ a ∈ n.topology.assignments, ∃ m x, n.graph.machine? a.machine = some m ∧
      n.topology.subnetOf? a.machine = some x ∧
      a.lease n.graph = ⟨m.label, a.iface, a.mac, a.address, x.role⟩ ∧
      ((leaseConfig c).subnets.filter fun y => y.net.contains a.address) =
        [leaseSubnet n.topology x] ∧
      a.address ≠ x.net.network ∧ a.address ≠ x.gateway ∧ a.address ≠ x.net.broadcast) ∧
    (∀ x ∈ n.topology.subnets, (x.role ≠ .guest → (leaseSubnet n.topology x).range = none) ∧
      (x.role = .guest → ∃ first last, (leaseSubnet n.topology x).range = some (first, last) ∧
        first.value ≤ last.value ∧
        ∀ b : Address, first.value ≤ b.value → b.value ≤ last.value → isHostOf x.net b = true ∧
          (∀ y ∈ n.topology.subnets, b ≠ y.gateway ∧ b ≠ y.net.broadcast) ∧
          ∀ l ∈ n.topology.leases n.graph, b ≠ l.address)) ∧
    ((∀ a ∈ n.topology.assignments, LeaseFile.IsBare a.iface) →
      (items? (leaseConfig c).text = some (leaseConfig c).items ↔ IsQuotable n.graph.domain)) := by
  obtain ⟨hg, ht, -⟩ := CompiledNetwork.ofDescription_eq_ok hn
  have h := Topology.isBuilt_of_ofGraph ht
  have hperm := h.leases_perm hs
  have hnodup : ∀ {β : Type} (f : Lease → β) (k : Assignment → β),
      (∀ a, f (a.lease n.graph) = k a) → (n.topology.assignments.map k).Nodup →
        ((n.topology.leases n.graph).map f).Nodup := by
    intro β f k hk hassigned
    rw [(hperm.map f).nodup_iff, List.map_map]
    exact (List.map_congr_left fun a _ => hk a) ▸ hassigned
  have hnetwork := (mem_managedContexts hc).1
  refine ⟨hnetwork ▸ rfl, hperm, hnodup _ _ (fun _ => rfl) ?_, fun hspare => ?_,
    fun a ha => exists_leaseSubnet hn hc hs ha,
    fun x hx => ⟨fun hrole => if_neg hrole, exists_range_apart hn hs hx⟩, fun hifaces => ?_⟩
  · exact (List.nodup_append.mp (h.nodup_addresses hs)).2.1
  · exact hnodup _ _ (fun _ => rfl) (h.nodup_assignedMacs hg hspare)
  · have hdomain : (leaseConfig c).domain = n.graph.domain := hnetwork ▸ rfl
    rw [← hdomain]
    exact LeaseConfig.items?_text_iff (isBare_leaseConfig hn hc hifaces)

/-- A router and a server, with guests. -/
def reservedLab : Description where
  autoguest := true
  servers := [
    ("router", { types := ["router"], lan := [("eth0", {})], wan := [("eth1", {})] }),
    ("web", { types := ["dedicated"], lan := [("lan0", { mac := some "02:00:00:00:00:01" })] })]

theorem leases_match_assignments_lab :
    Settings.default.Valid ∧ ∃ n,
      (CompiledNetwork.ofDescription "lab" reservedLab .default).result = .ok n ∧
      ∃ c ∈ managedContexts n .builtin,
        n.topology.HasSpareCandidates n.graph (Mac.derived Settings.default.macVendor) ∧
        ((n.topology.leases n.graph).map (·.mac)).Nodup ∧
        (∃ a ∈ n.topology.assignments, a.address = .ofOctets 10 10 0 2 ∧
          ∃ x, n.topology.subnetOf? a.machine = some x ∧ a.address ≠ x.gateway) ∧
        (∃ x ∈ n.topology.subnets, x.role = .guest ∧
          ∃ first last, (leaseSubnet n.topology x).range = some (first, last) ∧
            first.value ≤ last.value) ∧
        items? (leaseConfig c).text = some (leaseConfig c).items := by
  have hvalid : Settings.default.Valid := by decide
  have hlab : (CompiledNetwork.ofDescription "lab" reservedLab .default).result.map (fun n =>
      decide (n.topology.assignments.map (·.generatedMac) = [false] ∧
        (∀ a ∈ n.topology.assignments, LeaseFile.IsBare a.iface) ∧ IsQuotable n.graph.domain ∧
        (∃ a ∈ n.topology.assignments, a.address = .ofOctets 10 10 0 2) ∧
        (∃ x ∈ n.topology.subnets, x.role = .guest) ∧ managedContexts n .builtin ≠ [])) =
        .ok true := by
    decide +kernel
  obtain ⟨n, hn, hlab⟩ := map_eq_ok.mp hlab
  obtain ⟨hmade, hifaces, hdomain, ⟨a, ha, haddress⟩, ⟨x, hx, hguest⟩, hmanaged⟩ :=
    of_decide_eq_true hlab
  obtain ⟨c, hc⟩ := List.exists_mem_of_ne_nil _ hmanaged
  have hspare : n.topology.HasSpareCandidates n.graph
      (Mac.derived Settings.default.macVendor) := by
    intro before b after hsplit hb
    rw [hsplit, List.map_append, List.map_cons, hb] at hmade
    cases before <;> simp at hmade
  obtain ⟨-, -, -, hmacs, hassigned, hranges, hfile⟩ :=
    leases_match_assignments "lab" reservedLab .default hvalid n hn .builtin c hc
  obtain ⟨-, y, -, hy, -, -, -, hgateway, -⟩ := hassigned a ha
  obtain ⟨first, last, hrange, hle, -⟩ := (hranges x hx).2 hguest
  exact ⟨hvalid, n, hn, c, hc, hspare, hmacs hspare, ⟨a, ha, haddress, y, hy, hgateway⟩,
    ⟨x, hx, hguest, first, last, hrange, hle⟩, (hfile hifaces).mpr hdomain⟩

/-- A domain that closes its quotes and goes on with a host. -/
def openDomain : String :=
  "lan\"; host spare \x7b hardware ethernet 02:00:00:00:00:01; fixed-address 10.10.0.2; \x7d #"

/-- What the line with that domain is read as. -/
def openItems : List Item :=
  [.statement [.word "option", .word "domain-name", .quoted "lan"],
    .block [.word "host", .word "spare"]
      [[.word "hardware", .word "ethernet", .word "02:00:00:00:00:01"],
        [.word "fixed-address", .word "10.10.0.2"]]]

theorem reads_openDomain :
    LeaseFile.Reads ["option domain-name \"" ++ openDomain ++ "\";"]
      (openItems.flatMap Item.tokens) := by
  unfold LeaseFile.Reads
  decide +kernel

/-- A domain that does not stay between its quotes adds a second reservation of the only hardware
address, for the only address, that was assigned. -/
theorem reservation_doubled :
    ∃ n, (CompiledNetwork.ofDescription "lab" { reservedLab with domain := some openDomain }
        .default).result = .ok n ∧
      n.topology.assignments.length = 1 ∧
      ∃ c ∈ managedContexts n .builtin, c.machine.isRouter = true ∧
        ∃ hosts, hosts? (leaseConfig c).text = some hosts ∧
          ¬(hosts.map (·.mac)).Nodup ∧ ¬(hosts.map (·.address)).Nodup := by
  have hlab : (CompiledNetwork.ofDescription "lab" { reservedLab with domain := some openDomain }
      .default).result.map (fun n =>
      decide (n.topology.assignments.length = 1 ∧
        (∀ a ∈ n.topology.assignments, LeaseFile.IsBare a.iface) ∧
        ∃ c ∈ managedContexts n .builtin, c.machine.isRouter = true ∧
          (leaseConfig c).domain = openDomain ∧
          (leaseConfig c).reservations.map (fun l => (⟨reservationName l, l.mac.text,
            l.address.text⟩ : LeaseFile.Host)) =
              [⟨"web-lan0", "02:00:00:00:00:01", "10.10.0.2"⟩])) = .ok true := by
    decide +kernel
  obtain ⟨n, hn, hlab⟩ := map_eq_ok.mp hlab
  obtain ⟨hlength, hifaces, c, hc, hrouter, hdomain, hreserved⟩ := of_decide_eq_true hlab
  have hline : (leaseConfig c).domainLine = "option domain-name \"" ++ openDomain ++ "\";" :=
    congrArg (fun domain => "option domain-name \"" ++ domain ++ "\";") hdomain
  have hitems := LeaseConfig.items?_text_of_domain (isBare_leaseConfig hn hc hifaces)
    (by simp [openItems, Item.HasNoSigns, LeaseFile.Token.isSign]) (hline ▸ reads_openDomain)
  have hhosts : hosts? (leaseConfig c).text =
      some [⟨"spare", "02:00:00:00:00:01", "10.10.0.2"⟩,
        ⟨"web-lan0", "02:00:00:00:00:01", "10.10.0.2"⟩] := by
    rw [hosts?, hitems, Option.map_some, List.filterMap_append, LeaseConfig.filterMap_bodyItems,
      hreserved]
    rfl
  exact ⟨n, hn, hlength, c, hc, hrouter, _, hhosts, by decide, by decide⟩

end Provision

end NetworkCompiler
