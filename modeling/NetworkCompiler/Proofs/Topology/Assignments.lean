import Mathlib.Data.List.Perm.Basic
import NetworkCompiler.Proofs.Network.Graphs
import NetworkCompiler.Proofs.Topology.Claims
import NetworkCompiler.Proofs.Topology.Placements

/-!
# Assigned addresses

The assignments of a built topology belong to its seats, one each and in the same order
(`gets_seats`). Every assigned address is a host of the subnet of its seat (`isHostOf_of_mem`).
Within a subnet no two are equal, because their keys are distinct (`nodup_keys`), and between
subnets no two are equal, because no address lies in two of them (`nodup_addresses`). For a
described network nobody is left out : `assignments_of_described` states what every machine gets.

Under the network-wide policy the addresses of outer interfaces are claimed before any machine
inside is looked at, so no assigned address is one of them (`address_ne_outer`). A gateway is
nobody's choice : it follows from the block alone. It is kept away from an outer address only by a
subnet that is declared beside the address, because all blocks are apart from that
(`not_contains_outer`).
-/

namespace NetworkCompiler

open Ipv4 (Address Block)

variable {g : Graph} {s : Settings} {t : Topology}

theorem assignAddresses_eq_ok {hash : List UInt8 → List UInt8} {ps : List (MachineId × Role)}
    {xs : List Subnet} {as : List Assignment}
    (h : (assignAddresses hash g s ps xs).result = .ok as) :
    checkDeclaredMacs g ps = .ok () ∧
      ∃ claims, (seats g ps xs).foldlM (claimExplicit s.policy) (initialClaims g s.policy xs) =
          .ok claims ∧
        (settle s.policy (Mac.derivedBy hash s.macVendor) ⟨claims, macsInUse g⟩
          (seats g ps xs)).result = .ok as := by
  obtain ⟨⟨⟩, hcheck, h⟩ := Traced.result_bind_eq_ok.mp h
  obtain ⟨claims, hclaims, h⟩ := Traced.result_bind_eq_ok.mp h
  exact ⟨hcheck, claims, hclaims, h⟩

theorem map_key_explicit {xs : List Seat} {as : List Assignment}
    (h : List.Forall₂ Seat.Gets xs as) :
    (as.filter (·.explicit)).map Assignment.key = xs.filterMap Seat.declaredKey? := by
  refine map_filter_of_forall₂ h fun x a hget => ?_
  rw [Seat.declaredKey?, hget.explicit_eq]
  cases hhead : x.iface.addresses.head? with
  | none => rfl
  | some b =>
    rw [Assignment.key, hget.declared b hhead, hget.role_eq]
    rfl

namespace Topology.IsBuilt

section Built

variable (h : t.IsBuilt g s) (hs : s.Valid)
include h

/-- Every seat gets one assignment, in the order of the seats. -/
theorem gets_seats :
    List.Forall₂ Seat.Gets (seats g (placementsOf g) t.subnets) t.assignments := by
  obtain ⟨-, claims, -, hsettle⟩ := assignAddresses_eq_ok h.assignments
  exact (settle_eq_ok hsettle).1

/-- The gateways and the assigned addresses, each with its subnet, are distinct. -/
theorem nodup_keys :
    (t.subnets.map Subnet.gatewayKey ++ t.assignments.map Assignment.key).Nodup := by
  obtain ⟨-, claims, hclaims, hsettle⟩ := assignAddresses_eq_ok h.assignments
  obtain ⟨hgets, hserved, hnew⟩ := settle_eq_ok hsettle
  obtain ⟨hkeys, hnd, -⟩ := claimExplicit_fold hclaims
  rw [claimKeys_initialClaims] at hkeys hnd
  have hgateways : (t.subnets.map Subnet.gatewayKey).Nodup :=
    .of_map Prod.fst (by simpa [Function.comp_def, Subnet.gatewayKey] using h.nodup_roles)
  have hall : (claimKeys claims ++ servedKeys t.assignments).Nodup :=
    List.nodup_append.mpr ⟨hnd (List.nodup_reverse.mpr hgateways), hserved,
      fun k hk l hl heq => hnew l hl (heq ▸ hk)⟩
  have hsplit : (t.assignments.map Assignment.key).Perm
      ((seats g (placementsOf g) t.subnets).filterMap Seat.declaredKey? ++
        servedKeys t.assignments) := by
    rw [← map_key_explicit hgets, servedKeys, ← List.map_append]
    exact ((List.filter_append_perm _ _).map _).symm
  refine (List.Perm.nodup_iff ?_).mpr hall
  have hswap : (t.subnets.map Subnet.gatewayKey ++
      (seats g (placementsOf g) t.subnets).filterMap Seat.declaredKey?).Perm
      (claimKeys claims) := by
    rw [hkeys]
    exact List.perm_append_comm.trans ((List.reverse_perm _).append (List.reverse_perm _)).symm
  refine (hsplit.append_left _).trans ?_
  rw [← List.append_assoc]
  exact hswap.append_right _

/-! ## Hosts -/

include hs

/-- The gateway of a subnet is the address behind its network address. -/
theorem gateway_value {x : Subnet} (hx : x ∈ t.subnets) :
    x.net.length ≤ 30 ∧ x.gateway.value = x.net.network.value + 1 :=
  h.allocations.gateway_value hs hx

/-- Every assigned address is a host of the subnet that the machine is placed in. -/
theorem isHostOf_of_mem {a : Assignment} (ha : a ∈ t.assignments) :
    ∃ x ∈ t.subnets, a.role = x.role ∧ (a.machine, x.role) ∈ placementsOf g ∧
      isHostOf x.net a.address = true := by
  obtain ⟨y, hy, hget⟩ := exists_of_mem_right h.gets_seats ha
  obtain ⟨hsubnet, hplace, -⟩ := mem_seats.mp hy
  refine ⟨y.subnet, hsubnet, hget.role_eq, hget.machine_eq ▸ hplace, ?_⟩
  cases hhead : y.iface.addresses.head? with
  | some b =>
    obtain ⟨-, claims, hclaims, -⟩ := assignAddresses_eq_ok h.assignments
    rw [hget.declared b hhead]
    exact (claimExplicit_fold hclaims).2.2 y hy b hhead
  | none =>
    obtain ⟨hlo, hhi⟩ := hget.served hhead
    obtain ⟨-, hgateway⟩ := h.gateway_value hs hsubnet
    have hcontains : y.subnet.net.contains a.address = true :=
      h.allocations.contains_of_between hs hsubnet hlo hhi
    have hnetwork : a.address ≠ y.subnet.net.network := fun heq => by
      rw [heq] at hlo
      omega
    have hbroadcast : a.address ≠ y.subnet.net.broadcast := fun heq => by
      rw [heq] at hhi
      omega
    simp [isHostOf, hcontains, hnetwork, hbroadcast]

/-- An address with its subnet lies in that subnet. -/
theorem contains_of_mem_keys {k : Role × Address}
    (hk : k ∈ t.subnets.map Subnet.gatewayKey ++ t.assignments.map Assignment.key) :
    ∃ x ∈ t.subnets, k.1 = x.role ∧ x.net.contains k.2 = true := by
  rcases List.mem_append.mp hk with hk | hk
  · obtain ⟨x, hx, rfl⟩ := List.mem_map.mp hk
    exact ⟨x, hx, rfl, h.allocations.contains_gateway hs hx⟩
  · obtain ⟨a, ha, rfl⟩ := List.mem_map.mp hk
    obtain ⟨x, hx, hrole, -, hhost⟩ := h.isHostOf_of_mem hs ha
    exact ⟨x, hx, hrole, contains_of_isHostOf hhost⟩

/-- No two subnets share an address, so the gateways and the assigned addresses are distinct
throughout the network. -/
theorem nodup_addresses :
    (t.subnets.map (·.gateway) ++ t.assignments.map (·.address)).Nodup := by
  have hmap : t.subnets.map (·.gateway) ++ t.assignments.map (·.address) =
      (t.subnets.map Subnet.gatewayKey ++ t.assignments.map Assignment.key).map Prod.snd := by
    rw [List.map_append, List.map_map, List.map_map]
    rfl
  rw [hmap]
  refine h.nodup_keys.map_on fun k hk l hl heq => ?_
  obtain ⟨x, hx, hkx, hxk⟩ := h.contains_of_mem_keys hs hk
  obtain ⟨y, hy, hly, hyl⟩ := h.contains_of_mem_keys hs hl
  have hxy : x = y := h.allocations.eq_of_contains hx hy hxk (heq ▸ hyl)
  exact Prod.ext (by rw [hkx, hly, hxy]) heq

/-- No two machines have an address in common. -/
theorem eq_of_mem_addressesOf {i j : MachineId} {a : Address} (hi : a ∈ t.addressesOf i)
    (hj : a ∈ t.addressesOf j) : i = j := by
  obtain ⟨-, hassigned, hapart⟩ := List.nodup_append.mp (h.nodup_addresses hs)
  have hmem : ∀ {id}, a ∈ (t.assignmentsOf id).map (·.address) →
      ∃ b ∈ t.assignments, b.machine = id ∧ b.address = a := by
    intro id ha
    obtain ⟨b, hb, rfl⟩ := List.mem_map.mp ha
    obtain ⟨hb, hid⟩ := List.mem_filter.mp hb
    exact ⟨b, hb, of_decide_eq_true hid, rfl⟩
  rw [Topology.addressesOf] at hi hj
  split_ifs at hi hj with hirouter hjrouter hjrouter
  · rw [hirouter, hjrouter]
  · obtain ⟨b, hb, -, rfl⟩ := hmem hj
    exact absurd rfl (hapart _ hi _ (List.mem_map_of_mem hb))
  · obtain ⟨b, hb, -, rfl⟩ := hmem hi
    exact absurd rfl (hapart _ hj _ (List.mem_map_of_mem hb))
  · obtain ⟨b, hb, rfl, rfl⟩ := hmem hi
    obtain ⟨c, hc, rfl, haddress⟩ := hmem hj
    rw [List.inj_on_of_nodup_map hassigned hb hc haddress.symm]

end Built

/-! ## Machines -/

section Machines

variable (h : t.IsBuilt g s)
include h

/-- Only a machine that is placed has assignments. -/
theorem exists_machine_of_mem {a : Assignment} (ha : a ∈ t.assignments) :
    ∃ m, g.machine? a.machine = some m ∧ m.isRouter = false ∧ m.lan ≠ [] := by
  obtain ⟨y, hy, hget⟩ := exists_of_mem_right h.gets_seats ha
  obtain ⟨m, hm, hlan, hrole⟩ := mem_placementsOf.mp (mem_seats.mp hy).2.1
  exact ⟨m, hget.machine_eq ▸ hm, Machine.isRouter_eq_false_of_vlanRole? hrole, hlan⟩

theorem assignmentsOf_eq_nil {id : MachineId} {m : Machine} (hm : g.machine? id = some m)
    (hnone : m.isRouter = true ∨ m.lan = []) : t.assignmentsOf id = [] := by
  refine List.filter_eq_nil_iff.mpr fun a ha hid => ?_
  obtain ⟨n, hn, hrouter, hlan⟩ := h.exists_machine_of_mem ha
  rw [of_decide_eq_true hid, hm] at hn
  cases hn
  rcases hnone with hnone | hnone
  · rw [hnone] at hrouter
    cases hrouter
  · exact hlan hnone

/-- The role of a placed machine has a subnet, unless it is the guests'. -/
theorem exists_subnet {id : MachineId} {r : Role} (hplace : (id, r) ∈ placementsOf g)
    (hr : r ∈ Role.vlanEligible) (hguest : r ≠ .guest) : ∃ x ∈ t.subnets, x.role = r := by
  have hserved := mem_servedRoles hplace hr hguest
  rw [← h.allocations.map_role] at hserved
  obtain ⟨x, hx, hrole⟩ := List.mem_map.mp hserved
  exact ⟨x, hx, hrole⟩

/-- A declared machine that is no router has one assignment for each of its inner interfaces, in
their order, and an interface with an address keeps it. -/
theorem assignmentsOf_of_isDeclared {id : MachineId} {m : Machine}
    (hm : g.machine? id = some m) (hdeclared : m.IsDeclared) (hrouter : m.isRouter = false) :
    List.Forall₂ (fun i a => a.iface = i.name ∧ ∀ b ∈ i.addresses, a.address = b) m.lan
      (t.assignmentsOf id) := by
  have hfilter : List.Forall₂ Seat.Gets
      ((seats g (placementsOf g) t.subnets).filter fun y => y.machine = id)
      (t.assignmentsOf id) :=
    forall₂_filter h.gets_seats fun y a hget => by rw [hget.machine_eq]
  by_cases hlan : m.lan = []
  · rw [hlan, h.assignmentsOf_eq_nil hm (Or.inr hlan)]
    exact .nil
  obtain ⟨r, hr, hrole, hguest⟩ := hdeclared.placed hrouter
  have hplace : (id, r) ∈ placementsOf g := mem_placementsOf.mpr ⟨m, hm, hlan, hrole⟩
  obtain ⟨x, hx, rfl⟩ := h.exists_subnet hplace hr hguest
  rw [filter_seats h hx hm hplace, List.forall₂_map_left_iff] at hfilter
  refine ((List.forall₂_and_left _ _).mpr ⟨hdeclared.lan_addresses, hfilter⟩).imp ?_
  rintro i a ⟨hlength, hget⟩
  refine ⟨hget.iface_eq, fun b hb => hget.declared b ?_⟩
  -- The only address of an interface is its first.
  obtain ⟨c, hc⟩ := List.length_eq_one_iff.mp (Nat.le_antisymm hlength (List.length_pos_of_mem hb))
  rw [hc, List.mem_singleton] at hb
  simp [hc, hb]

end Machines

end Topology.IsBuilt

/-! ## Outer addresses -/

namespace Topology.IsBuilt

variable {m : Machine} {i : Interface} {a : Address}
variable (h : t.IsBuilt g s) (hm : m ∈ g.machines) (hi : i ∈ m.wan) (ha : a ∈ i.addresses)
include h hm hi ha

/-- No assigned address is the address of an outer interface. -/
theorem address_ne_outer (hpolicy : s.policy = .networkWide) :
    ∀ b ∈ t.assignments, b.address ≠ a := by
  intro b hb
  obtain ⟨-, claims, hclaims, hsettle⟩ := assignAddresses_eq_ok h.assignments
  rw [hpolicy] at hclaims hsettle
  obtain ⟨hsub, hdeclared⟩ := claimExplicit_fold_apart hclaims
  obtain ⟨c, hc, rfl⟩ := mem_wanClaims hm hi ha
  have hinitial : c ∈ initialClaims g .networkWide t.subnets :=
    List.mem_reverse.mpr (List.mem_append_left _ hc)
  obtain ⟨y, hy, hget⟩ := exists_of_mem_right h.gets_seats hb
  cases hhead : y.iface.addresses.head? with
  | some e =>
    rw [hget.declared e hhead]
    exact (hdeclared y hy e hhead c hinitial).symm
  | none =>
    have hexplicit : b.explicit = false := by rw [hget.explicit_eq, hhead]; rfl
    exact (settle_apart hsettle b hb hexplicit c (hsub hinitial)).symm

/-- No subnet holds the address of an outer interface with a subnet of its own. -/
theorem not_contains_outer (hlegal : i.fault? = none) (hsubnet : i.subnet ≠ none) :
    ∀ x ∈ t.subnets, x.net.contains a = false := by
  intro x hx
  obtain ⟨w, hw⟩ := Option.ne_none_iff_exists'.mp hsubnet
  have hwan : w ∈ wanNetworks g :=
    List.mem_flatMap.mpr ⟨m, hm, List.mem_filterMap.mpr ⟨i, hi, hw⟩⟩
  exact h.allocations.apart_wan hx hwan a (Interface.contains_of_legal hlegal hw ha)

end Topology.IsBuilt

/-! ## Described networks -/

/-- An address that an entry of a server gives to an inner interface is the address that the
interface gets. -/
theorem exists_assignment_of_entry {name : String} {d : Description}
    (hg : Graph.ofDescription name d s = .ok g) (h : t.IsBuilt g s) {label iface raw : String}
    {e : ServerEntry} (he : (label, e) ∈ d.servers) {entry : InterfaceEntry}
    (hentry : (iface, entry) ∈ e.lan) (hraw : entry.address = some raw) :
    ∃ id m, g.machine? id = some m ∧ m.label = label ∧ ∃ a ∈ t.assignmentsOf id,
      a.iface = iface ∧ Address.ofText? (Text.trim raw) = some a.address := by
  obtain ⟨m, hm, hlabel, n, hrouter, hlan⟩ :=
    Graph.exists_server hg he (List.ne_nil_of_mem hentry)
  obtain ⟨i, hi, hread⟩ := exists_of_mem_left hlan hentry
  obtain ⟨hname, _, hread, haddresses, hport⟩ := lanInterface_eq_ok hread
  rw [hraw] at hread
  obtain ⟨b, rfl, htext⟩ := readAddress?_eq_ok hread
  have hfalse : m.isRouter = false := by
    by_contra htrue
    cases hport (hrouter.trans (by simpa using htrue))
  obtain ⟨id, hid⟩ := List.mem_iff_getElem?.mp hm
  obtain ⟨a, ha, hiface, haddress⟩ := exists_of_mem_left
    (h.assignmentsOf_of_isDeclared hid (Graph.isDeclared hg hm) hfalse) hi
  refine ⟨id, m, hid, hlabel, a, ha, hiface.trans hname, ?_⟩
  rw [haddress b (by simp [haddresses]), htext]

/-- What the allocation gives to a described network : the router gets no assignment, every other
machine one for each of its inner interfaces; an address that was written down is kept; every
assigned address is a host of the subnet that its machine is placed in; and the gateways and the
assigned addresses are all distinct. -/
theorem assignments_of_described (name : String) (d : Description) (s : Settings)
    (hs : s.Valid) (g : Graph) (hg : Graph.ofDescription name d s = .ok g) (t : Topology)
    (ht : (Topology.ofGraph g s).result = .ok t) :
    (∀ id m, g.machine? id = some m → m.isRouter = true → t.assignmentsOf id = []) ∧
    (∀ id m, g.machine? id = some m → m.isRouter = false →
      List.Forall₂ (fun i a => a.iface = i.name ∧ ∀ b ∈ i.addresses, a.address = b) m.lan
        (t.assignmentsOf id)) ∧
    (∀ label e, (label, e) ∈ d.servers → ∀ iface entry, (iface, entry) ∈ e.lan →
      ∀ raw, entry.address = some raw →
        ∃ id m, g.machine? id = some m ∧ m.label = label ∧ ∃ a ∈ t.assignmentsOf id,
          a.iface = iface ∧ Address.ofText? (Text.trim raw) = some a.address) ∧
    (∀ a ∈ t.assignments, (∃ m, g.machine? a.machine = some m ∧ m.isRouter = false) ∧
      ∃ x, t.subnetOf? a.machine = some x ∧ x.net.contains a.address = true ∧
        a.address ≠ x.net.network ∧ a.address ≠ x.net.broadcast) ∧
    (t.subnets.map (·.gateway) ++ t.assignments.map (·.address)).Nodup := by
  have h := Topology.isBuilt_of_ofGraph ht
  refine ⟨fun id m hm hrouter => h.assignmentsOf_eq_nil hm (Or.inl hrouter),
    fun id m hm hrouter => ?_, fun label e he iface entry hentry raw hraw => ?_,
    fun a ha => ?_, h.nodup_addresses hs⟩
  · have hdeclared := Graph.isDeclared hg (List.mem_of_getElem? hm)
    exact h.assignmentsOf_of_isDeclared hm hdeclared hrouter
  · exact exists_assignment_of_entry hg h he hentry hraw
  · obtain ⟨m, hm, hrouter, -⟩ := h.exists_machine_of_mem ha
    obtain ⟨x, hx, -, hplace, hhost⟩ := h.isHostOf_of_mem hs ha
    simp only [isHostOf, Bool.and_eq_true, decide_eq_true_eq] at hhost
    exact ⟨⟨m, hm, hrouter⟩, x, h.subnetOf?_eq_some hx hplace, hhost.1.1, hhost.1.2, hhost.2⟩

/-- A router and two servers, one of them with the first address behind the gateway. -/
def describedLab : Description where
  domain := some "lan"
  servers := [
    ("mail", { types := ["dedicated"], lan := [("lan0", { mac := some "02:00:00:00:00:02" })] }),
    ("router", { types := ["router"], wan := [("eth1", {})], lan := [("eth0", {})] }),
    ("web", { types := ["dedicated"],
              lan := [("lan0",
                { mac := some "02:00:00:00:00:01", address := some "10.10.0.2" })] })]

theorem assignments_of_described_lab :
    Settings.default.Valid ∧ ∃ g t, Graph.ofDescription "lab" describedLab .default = .ok g ∧
      (Topology.ofGraph g .default).result = .ok t ∧
      t.assignments.map (·.address.text) = ["10.10.0.3", "10.10.0.2"] ∧
      (t.subnets.map (·.gateway) ++ t.assignments.map (·.address)).Nodup := by
  have hvalid : Settings.default.Valid := by decide
  have hgets : (Graph.ofDescription "lab" describedLab .default >>= fun g =>
      (Topology.ofGraph g .default).result.map fun t => t.assignments.map (·.address.text)) =
        .ok ["10.10.0.3", "10.10.0.2"] := by
    decide +kernel
  obtain ⟨g, hg, hgets⟩ := bind_eq_ok.mp hgets
  obtain ⟨t, ht, hgets⟩ := map_eq_ok.mp hgets
  have h := assignments_of_described "lab" describedLab .default hvalid g hg t ht
  exact ⟨hvalid, g, t, hg, ht, hgets, h.2.2.2.2⟩

end NetworkCompiler
