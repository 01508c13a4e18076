import NetworkCompiler.Proofs.Lists
import NetworkCompiler.Proofs.Topology.Subnets

/-!
# Built topologies

What is known of a topology that was built (`Topology.IsBuilt`) : its router is the only one, its
subnets are the allocations of the roles that are served, its assignments come from serving the
inner interfaces in those subnets. `subnets_first_free` puts the allocation of subnets together
for a whole network.
-/

namespace NetworkCompiler

open Ipv4 (Address Block)

variable {g : Graph} {s : Settings} {t : Topology}

/-- A topology with everything that the steps of its construction decided. -/
structure Topology.IsBuilt (g : Graph) (s : Settings) (t : Topology) : Prop where
  router : ∃ m, findRouter g = .ok (t.router, m) ∧
    buildTrunk m.label m.lan = .ok (t.trunk, t.bondMembers) ∧
    List.Forall₂ (fun x i => vlanInterface m.label t.trunk.name x = .ok i) t.subnets t.vlans
  allocations : Allocations s (wanNetworks g) [] g.servedRoles t.subnets
  routingRules : t.routingRules = t.subnets.map Subnet.routingRule
  placements : t.placements = placementsOf g
  assignments : (assignAddresses Digest.sha256 g s (placementsOf g) t.subnets).result =
    .ok t.assignments

/-- What the steps of a construction decide, however hardware addresses are made up. -/
theorem Topology.ofGraphBy_eq_ok {hash : List UInt8 → List UInt8}
    (h : (Topology.ofGraphBy hash g s).result = .ok t) :
    (∃ m, findRouter g = .ok (t.router, m) ∧
      buildTrunk m.label m.lan = .ok (t.trunk, t.bondMembers) ∧
      List.Forall₂ (fun x i => vlanInterface m.label t.trunk.name x = .ok i) t.subnets t.vlans) ∧
    Allocations s (wanNetworks g) [] g.servedRoles t.subnets ∧
    t.routingRules = t.subnets.map Subnet.routingRule ∧ t.placements = placementsOf g ∧
    (assignAddresses hash g s (placementsOf g) t.subnets).result = .ok t.assignments := by
  obtain ⟨⟨router, m⟩, hrouter, h⟩ := Traced.result_bind_eq_ok.mp h
  obtain ⟨⟨trunk, bonded⟩, htrunk, h⟩ := Traced.result_bind_eq_ok.mp h
  obtain ⟨built, hbuilt, h⟩ := Traced.result_bind_eq_ok.mp h
  obtain ⟨assignments, hassign, h⟩ := Traced.result_bind_eq_ok.mp h
  obtain ⟨-, -, h⟩ := Traced.result_bind_eq_ok.mp h
  obtain ⟨hall, hvlans⟩ := buildVlans_eq_ok.mp hbuilt
  cases h
  refine ⟨⟨m, ofTopology_eq_ok.mp hrouter, ofInput_eq_ok.mp htrunk, ?_⟩, hall, rfl, rfl,
    Traced.result_mapError_eq_ok.mp hassign⟩
  rw [List.forall₂_map_left_iff, List.forall₂_map_right_iff, List.forall₂_same]
  exact hvlans

theorem Topology.isBuilt_of_ofGraph (h : (Topology.ofGraph g s).result = .ok t) :
    t.IsBuilt g s := by
  obtain ⟨hrouter, hall, hrules, hplacements, hassign⟩ := ofGraphBy_eq_ok h
  exact ⟨hrouter, hall, hrules, hplacements, hassign⟩

section VlanInterfaces

variable (h : t.IsBuilt g s)
include h

/-- The VLAN interfaces belong to the subnets, one each and in the same order. -/
theorem Topology.IsBuilt.forall₂_vlans :
    List.Forall₂ (fun x i => i.name = x.iface ∧ i.parent = some t.trunk.name ∧
      i.vlanId = some x.vlanId ∧ i.addresses = [x.gateway] ∧ i.subnet = some x.net)
      t.subnets t.vlans := by
  obtain ⟨m, -, -, hvlans⟩ := h.router
  refine hvlans.imp fun x i hi => ?_
  obtain ⟨-, rfl⟩ := Interface.checked_eq_ok.mp hi
  exact ⟨rfl, rfl, rfl, rfl, rfl⟩

/-- A VLAN interface is named for the role that it serves. -/
theorem Topology.IsBuilt.map_name_vlans :
    t.vlans.map (·.name) = g.servedRoles.map Role.vlanInterface := by
  have hifaces : t.subnets.map (·.iface) = t.subnets.map fun x => x.role.vlanInterface :=
    List.map_congr_left fun x hx => by
      obtain ⟨_, hx⟩ := h.allocations.allocates_of_mem hx
      exact hx.iface_eq
  rw [← h.allocations.map_role, List.map_map, ← map_eq_map_of_forall₂ h.forall₂_vlans fun x i hi =>
    hi.1.symm, hifaces]
  rfl

end VlanInterfaces

/-! ## Where the allocation ends for want of room -/

/-- A fault other than a lack of room for a subnet. -/
def TopologyError.IsOther (e : TopologyError) : Prop :=
  ∀ w n, e ≠ .noFreeSubnet w n

theorem isOther_of_findRouter {e : TopologyError} (h : findRouter g = .error e) : e.IsOther := by
  unfold findRouter at h
  split at h <;> cases h <;> nofun

theorem isOther_of_checkDeclaredMacs {ps : List (MachineId × Role)} {e : TopologyError}
    (h : checkDeclaredMacs g ps = .error e) : e.IsOther := by
  refine forM_error (fun ⟨_, m⟩ _ e he => ?_) h
  dsimp only at he
  split at he <;> cases he
  nofun

theorem isOther_of_claimExplicit {policy : AllocationPolicy} {claims : List Claim} {x : Seat}
    {e : TopologyError} (h : claimExplicit policy claims x = .error e) : e.IsOther := by
  unfold claimExplicit at h
  split at h
  · cases h
  · simp only at h
    split at h
    · cases h
      exact fun _ _ h => by cases h
    · split at h <;> cases h
      exact fun _ _ h => by cases h

theorem isOther_of_settle {policy : AllocationPolicy} {candidates : String → Nat → Mac}
    {pool : Pool} {xs : List Seat} {e : TopologyError}
    (h : (settle policy candidates pool xs).result = .error e) : e.IsOther := by
  induction xs generalizing pool with
  | nil => cases h
  | cons x xs ih =>
    rw [settle, Traced.result_bind_eq_error] at h
    rcases h with h | ⟨⟨mac, generated, pool'⟩, -, h⟩
    · unfold settleMac at h
      split at h <;> cases h
    rcases Traced.result_bind_eq_error.mp h with h | ⟨⟨address, explicit, pool''⟩, -, h⟩
    · rw [Traced.result_ofExcept] at h
      unfold settleAddress at h
      split at h
      · cases h
      · split at h <;> cases h
        nofun
    rcases Traced.result_bind_eq_error.mp h with h | ⟨-, -, h⟩
    · cases h
    rcases Traced.result_bind_eq_error.mp h with h | ⟨done, -, h⟩
    · exact ih h
    · cases h

theorem isOther_of_assignAddresses {hash : List UInt8 → List UInt8} {ps : List (MachineId × Role)}
    {xs : List Subnet} {e : TopologyError}
    (h : (assignAddresses hash g s ps xs).result = .error e) : e.IsOther := by
  rcases Traced.result_bind_eq_error.mp h with h | ⟨-, -, h⟩
  · exact isOther_of_checkDeclaredMacs h
  rcases Traced.result_bind_eq_error.mp h with h | ⟨claims, -, h⟩
  · exact foldlM_error (fun _ _ _ _ => isOther_of_claimExplicit) h
  · exact isOther_of_settle h

theorem mem_vlanEligible_of_mem_vlanRoles {autoguest : Bool} {r : Role}
    (h : r ∈ vlanRoles autoguest) : r ∈ Role.vlanEligible :=
  List.mem_of_mem_filter h

/-- A network with one router and a trunk ends for want of room exactly at a role that lacks
it. -/
theorem ofGraph_eq_noFreeSubnet (hs : s.Valid) {w : String} {n : Nat} :
    (Topology.ofGraph g s).result = .error (.topology (.noFreeSubnet w n)) ↔
      n = s.prefixLength ∧ ∃ id m trunk bonded r, findRouter g = .ok (id, m) ∧
        buildTrunk m.label m.lan = .ok (trunk, bonded) ∧ w = r.word ∧
        LacksRoom s (wanNetworks g) trunk.name [] g.servedRoles r := by
  have hroles : ∀ r ∈ vlanRoles g.autoguest, r ∈ Role.vlanEligible := fun _ =>
    mem_vlanEligible_of_mem_vlanRoles
  constructor
  · intro h
    rcases Traced.result_bind_eq_error.mp h with h | ⟨⟨id, m⟩, hrouter, h⟩
    · exact absurd rfl (isOther_of_findRouter (ofTopology_eq_error.mp h) w n)
    rcases Traced.result_bind_eq_error.mp h with h | ⟨⟨trunk, bonded⟩, htrunk, h⟩
    · exact absurd h ofInput_ne_topology
    rcases Traced.result_bind_eq_error.mp h with h | ⟨built, -, h⟩
    · obtain ⟨hn, r, hw, h⟩ := (buildVlans_eq_noFreeSubnet hs hroles).mp h
      exact ⟨hn, id, m, trunk, bonded, r, ofTopology_eq_ok.mp hrouter,
        ofInput_eq_ok.mp htrunk, hw, h⟩
    rcases Traced.result_bind_eq_error.mp h with h | ⟨assignments, -, h⟩
    · exact absurd rfl (isOther_of_assignAddresses (ofTopology_eq_error.mp h) w n)
    · cases h
  · rintro ⟨rfl, id, m, trunk, bonded, r, hrouter, htrunk, rfl, h⟩
    refine Traced.result_bind_eq_error.mpr (Or.inr ⟨(id, m), ofTopology_eq_ok.mpr hrouter, ?_⟩)
    refine Traced.result_bind_eq_error.mpr (Or.inr ⟨(trunk, bonded), ofInput_eq_ok.mpr htrunk, ?_⟩)
    refine Traced.result_bind_eq_error.mpr (Or.inl ?_)
    exact (buildVlans_eq_noFreeSubnet hs hroles).mpr ⟨rfl, r, rfl, h⟩

/-- The subnets of a built topology share no address with each other or with the network of an
outer interface, and each is the first block from its role's base upward of which this is true.
The search for a role's subnet always comes back, empty-handed exactly if there is no such block,
and this is what ends a construction for want of room. -/
theorem subnets_first_free (g : Graph) (s : Settings) (hs : s.Valid) :
    (∀ t, (Topology.ofGraph g s).result = .ok t →
      t.subnets.map (·.role) = g.servedRoles ∧
      (t.subnets.Pairwise fun x y => x.net.Apart y.net) ∧
      (∀ x ∈ t.subnets, ∀ m ∈ g.machines, ∀ i ∈ m.wan, ∀ w, i.subnet = some w → x.net.Apart w) ∧
      ∀ before x after, t.subnets = before ++ x :: after →
        ∃ b, s.baseBlock? x.role = some b ∧ b.length = s.prefixLength ∧
          Block.FirstFree (takenBlocks before (wanNetworks g)) b x.net) ∧
    (∀ r ∈ Role.vlanEligible, ∀ taken, ∃ b, s.baseBlock? r = some b ∧
      ((∃ x, allocateSubnet s (wanNetworks g) taken r = .ok x ∧
          Block.FirstFree (takenBlocks taken (wanNetworks g)) b x.net) ∨
        allocateSubnet s (wanNetworks g) taken r =
            .error (.noFreeSubnet r.word s.prefixLength) ∧
          Block.NoneFree (takenBlocks taken (wanNetworks g)) b)) ∧
    ∀ w n, (Topology.ofGraph g s).result = .error (.topology (.noFreeSubnet w n)) ↔
      n = s.prefixLength ∧ ∃ id m trunk bonded r, findRouter g = .ok (id, m) ∧
        buildTrunk m.label m.lan = .ok (trunk, bonded) ∧ w = r.word ∧
        LacksRoom s (wanNetworks g) trunk.name [] g.servedRoles r := by
  refine ⟨fun t ht => ?_, fun r hr taken => ?_, fun w n => ofGraph_eq_noFreeSubnet hs⟩
  · have hall := (Topology.isBuilt_of_ofGraph ht).allocations
    refine ⟨hall.map_role, hall.pairwise_apart, fun x hx m hm i hi w hw => ?_,
      fun before x after hxs => ?_⟩
    · exact (hall.apart_wan hx (List.mem_flatMap.mpr
        ⟨m, hm, List.mem_filterMap.mpr ⟨i, hi, hw⟩⟩)).symm
    · obtain ⟨b, hb, hfree⟩ := (hall.allocates hxs).firstFree
      exact ⟨b, hb, Settings.length_baseBlock hb, hfree⟩
  · obtain ⟨b, hb, -⟩ := hs.exists_baseBlock hr
    refine ⟨b, hb, ?_⟩
    cases hx : allocateSubnet s (wanNetworks g) taken r with
    | ok x =>
      obtain ⟨c, hc, hfree⟩ := (allocateSubnet_eq_ok.mp hx).firstFree
      cases hb.symm.trans hc
      exact Or.inl ⟨x, rfl, hfree⟩
    | error e =>
      obtain ⟨rfl, hnone⟩ := allocateSubnet_eq_error.mp hx
      exact Or.inr ⟨rfl, hnone b hb⟩

/-- A router with a fixed outer address in `10.10.0.0/24`, and a server behind it. -/
def routedGraph : Graph where
  name := "lab"
  domain := "lan"
  resolvers := []
  adblocking := false
  autoguest := false
  autogenpasswds := false
  machines := [
    { label := "router", roles := [.router], fqdn := "router.lan",
      wan := [{ Interface.new "eth1" .static .wan with
        addresses := [.ofOctets 10 10 0 5],
        subnet := Block.ofAddress? (.ofOctets 10 10 0 5) 24 }] },
    { label := "web", roles := [.server, .dedicated], fqdn := "web.lan",
      lan := [{ Interface.new "lan0" .dhcp .lan with mac := some ⟨2, 0, 0, 0, 0, 1⟩ }] }]

/-- The servers' subnet steps past the router's outer network, which is the block at its base. -/
theorem subnets_first_free_routed :
    Settings.default.Valid ∧ ∃ t, (Topology.ofGraph routedGraph .default).result = .ok t ∧
      t.subnets.map (fun x => x.net.text) = ["10.10.1.0/24"] ∧
      ∀ x ∈ t.subnets, ∀ m ∈ routedGraph.machines, ∀ i ∈ m.wan, ∀ w, i.subnet = some w →
        x.net.Apart w := by
  have hvalid : Settings.default.Valid := by decide
  have hnets : (Topology.ofGraph routedGraph .default).result.map
      (fun t => t.subnets.map fun x => x.net.text) = .ok ["10.10.1.0/24"] := by
    decide +kernel
  obtain ⟨t, ht, hnets⟩ := map_eq_ok.mp hnets
  have h := (subnets_first_free routedGraph .default hvalid).1 t ht
  exact ⟨hvalid, t, ht, hnets, h.2.2.1⟩

end NetworkCompiler
