import NetworkCompiler.Proofs.Network.Consistency
import NetworkCompiler.Proofs.Topology.Placements

/-!
# Constructions from checked inputs

The construction of a topology checks every interface that it makes up, and has a way out wherever
the settings could lack something. Settings in range and the graph of a description leave all of
that unused : every role with a VLAN has a plan and a block at its base, of which the gateway is
a part (`Settings.Valid.exists_plannedBlock`), the trunk of a machine is legal and has a name
(`Graph.exists_buildTrunk`), and so is every VLAN interface on it. What is left are the faults
that concern the network as a whole (`exists_of_ofGraphBy_eq_error`).
-/

namespace NetworkCompiler

open Ipv4 (Address Block)

variable {g : Graph} {s : Settings}

/-! ## Plans -/

/-- The block at the base of a role's plan holds the base and a gateway. -/
theorem Settings.Valid.exists_plannedBlock (hs : s.Valid) {r : Role}
    (hr : r ∈ Role.vlanEligible) :
    ∃ p b, s.vlanFor? r = some p ∧ (1 ≤ p.vlan ∧ p.vlan ≤ 4094) ∧
      Block.ofAddress? p.base s.prefixLength = some b ∧ b.contains p.base = true ∧
      b.contains b.firstHost = true := by
  obtain ⟨p, hp, hvlan⟩ := hs.exists_plan hr
  obtain ⟨b, hb, hlength⟩ := hs.exists_baseBlock hr
  rw [Settings.baseBlock?, hp, Option.bind_some] at hb
  exact ⟨p, b, hp, hvlan, hb, Block.contains_of_ofAddress? hb,
    Block.contains_firstHost (hlength ▸ hs.prefixLength_mem.2)⟩

/-! ## Trunks -/

/-- Every machine of a graph could carry VLANs : its trunk is legal, and has a name. -/
theorem Graph.exists_buildTrunk {name : String} {d : Description} {s' : Settings}
    (hg : Graph.ofDescription name d s' = .ok g) {m : Machine} (hm : m ∈ g.machines) :
    ∃ trunk bonded, buildTrunk m.label m.lan = .ok (trunk, bonded) ∧ trunk.IsLegal := by
  match hlan : m.lan with
  | [] =>
    have hdummy : (Interface.new "lan0" .dummy .lan).fault? = none := by decide
    exact ⟨_, [], bind_eq_ok.mpr ⟨_, Interface.checked_eq_ok.mpr ⟨hdummy, rfl⟩, rfl⟩,
      Interface.fault?_eq_none_iff.mp hdummy⟩
  | [port] =>
    exact ⟨port, [], rfl, Graph.isLegal_of_mem hg hm (by simp [Machine.interfaces, hlan])⟩
  | port :: port' :: ports =>
    have hbond : ({ Interface.new "bond0" .bond .lan with
        members := (port :: port' :: ports).map (·.name) } : Interface).fault? = none := by
      have hname : Interface.isName "bond0" = true := by decide
      simp [Interface.fault?, Interface.kindFault?, Interface.strayAddress?, Interface.new, hname]
    exact ⟨_, _, bind_eq_ok.mpr ⟨_, Interface.checked_eq_ok.mpr ⟨hbond, rfl⟩, rfl⟩,
      Interface.fault?_eq_none_iff.mp hbond⟩

/-! ## VLANs -/

/-- On a trunk with a name, the allocation of VLANs ends with a fault of the network or not at
all. -/
theorem exists_of_buildVlans_eq_error (hs : s.Valid) {label trunk : String} (htrunk : trunk ≠ "")
    {populated : List Role} {taken : List Subnet} {roles : List Role}
    (hroles : ∀ r ∈ roles, r ∈ Role.vlanEligible) {e : Failure}
    (h : (buildVlans g s label trunk populated taken roles).result = .error e) :
    ∃ f, e = .topology f := by
  induction roles generalizing taken with
  | nil => cases h
  | cons role roles ih =>
    obtain ⟨hrole, hroles⟩ := List.forall_mem_cons.mp hroles
    cases hserved : role.isServed populated with
    | false =>
      rw [result_buildVlans_skip hserved] at h
      exact ih hroles h
    | true =>
      rw [result_buildVlans_serve hserved] at h
      rcases bind_eq_error.mp h with h | ⟨x, hx, h⟩
      · exact exists_of_ofTopology_eq_error h
      rcases bind_eq_error.mp h with h | ⟨i, -, h⟩
      · have hx := allocateSubnet_eq_ok.mp (ofTopology_eq_ok.mp hx)
        have hvlan : ∃ i, vlanInterface label trunk x = .ok i :=
          (hx.exists_vlanInterface hs hrole).mpr htrunk
        obtain ⟨i, hi⟩ := hvlan
        rw [hi] at h
        cases h
      rcases bind_eq_error.mp h with h | ⟨more, -, h⟩
      · exact ih hroles h
      · exact absurd h pure_ne_error

/-! ## Topologies -/

/-- From settings in range and the graph of a description a construction ends with a fault of the
network or not at all, whatever the hash. -/
theorem exists_of_ofGraphBy_eq_error (hs : s.Valid) {name : String} {d : Description}
    {s' : Settings} (hg : Graph.ofDescription name d s' = .ok g) {hash : List UInt8 → List UInt8}
    {e : Failure} (h : (Topology.ofGraphBy hash g s).result = .error e) :
    ∃ f, e = .topology f := by
  rcases Traced.result_bind_eq_error.mp h with h | ⟨⟨id, m⟩, hrouter, h⟩
  · exact exists_of_ofTopology_eq_error h
  have hm : m ∈ g.machines := by
    have hentry : (id, m) ∈ g.withRole .router := by
      rw [findRouter_eq_ok (ofTopology_eq_ok.mp hrouter)]
      exact List.mem_singleton_self _
    exact List.mem_of_getElem? (Graph.mem_entries.mp (List.mem_filter.mp hentry).1)
  obtain ⟨trunk, bonded, htrunk, hlegal⟩ := Graph.exists_buildTrunk hg hm
  rcases Traced.result_bind_eq_error.mp h with h | ⟨_, htrunk', h⟩
  · rw [Traced.result_ofExcept, htrunk] at h
    cases h
  cases htrunk.symm.trans (ofInput_eq_ok.mp htrunk')
  rcases Traced.result_bind_eq_error.mp h with h | ⟨built, -, h⟩
  · exact exists_of_buildVlans_eq_error hs hlegal.name_ne_empty
      (fun _ => mem_vlanEligible_of_mem_vlanRoles) h
  rcases Traced.result_bind_eq_error.mp h with h | ⟨assignments, -, h⟩
  · obtain ⟨f, -, rfl⟩ := mapError_eq_error.mp h
    exact ⟨f, rfl⟩
  · cases h

/-- What settings in range and the graph of a description promise to a construction. Every role
with a VLAN has a plan with a VLAN number and a block at its base, and gets no subnet only if no
block from there upward is free. Generated hardware addresses begin as the settings say. The trunk
of every machine is legal, and so are the VLAN interfaces of all subnets on it. So a construction
that fails, fails for the network as a whole and not for a single input. -/
theorem construction_of_checked (name : String) (d : Description) (s : Settings) (g : Graph)
    (hs : s.Valid) (hg : Graph.ofDescription name d s = .ok g) :
    (∀ r ∈ Role.vlanEligible, ∃ p b, s.vlanFor? r = some p ∧ (1 ≤ p.vlan ∧ p.vlan ≤ 4094) ∧
      Block.ofAddress? p.base s.prefixLength = some b ∧ b.contains p.base = true ∧
      b.contains b.firstHost = true ∧
      ∀ wan taken e, allocateSubnet s wan taken r = .error e →
        Block.NoneFree (takenBlocks taken wan) b) ∧
    (∃ v, MacVendor.ofText? s.macPrefix = some v ∧ s.macVendor = v) ∧
    (∀ m ∈ g.machines, ∃ trunk bonded, buildTrunk m.label m.lan = .ok (trunk, bonded) ∧
      trunk.IsLegal ∧ ∀ r ∈ Role.vlanEligible, ∀ wan taken x,
        allocateSubnet s wan taken r = .ok x →
          ∃ i, vlanInterface m.label trunk.name x = .ok i ∧ i.IsLegal) ∧
    ∀ hash e, (Topology.ofGraphBy hash g s).result = .error e → ∃ f, e = .topology f := by
  refine ⟨fun r hr => ?_, ?_, fun m hm => ?_, fun _ _ => exists_of_ofGraphBy_eq_error hs hg⟩
  · obtain ⟨p, b, hp, hvlan, hb, hbase, hhost⟩ := hs.exists_plannedBlock hr
    refine ⟨p, b, hp, hvlan, hb, hbase, hhost, fun wan taken e he => ?_⟩
    exact (allocateSubnet_eq_error.mp he).2 b (by rw [Settings.baseBlock?, hp]; exact hb)
  · obtain ⟨v, hv⟩ := hs.exists_vendor
    exact ⟨v, hv, by rw [Settings.macVendor, hv, Option.getD_some]⟩
  · obtain ⟨trunk, bonded, htrunk, hlegal⟩ := Graph.exists_buildTrunk hg hm
    refine ⟨trunk, bonded, htrunk, hlegal, fun r hr wan taken x hx => ?_⟩
    have hvlan : ∃ i, vlanInterface m.label trunk.name x = .ok i :=
      ((allocateSubnet_eq_ok.mp hx).exists_vlanInterface hs hr).mpr hlegal.name_ne_empty
    obtain ⟨i, hi⟩ := hvlan
    obtain ⟨hfault, rfl⟩ := Interface.checked_eq_ok.mp hi
    exact ⟨_, hi, Interface.fault?_eq_none_iff.mp hfault⟩

/-- Settings with the smallest subnets, and the users at the end of the address space. -/
def lastBlockSettings : Settings :=
  { Settings.default with
    prefixLength := 30
    vlans := [(.user, ⟨.ofOctets 255 255 255 254, 4094⟩)] }

/-- A router with two ports, a server and a user. -/
def bondedLab : Description where
  servers := [
    ("router", { types := ["router"], lan := [("eth0", {}), ("eth1", {})] }),
    ("web", { types := ["dedicated"], mac := some "02:00:00:00:00:01" })]
  users := [("eva", { macs := ["02:00:00:00:00:02"] })]

/-- The last block of all is a subnet like any other. -/
theorem construction_of_checked_lastBlock :
    lastBlockSettings.Valid ∧ ∃ g t, Graph.ofDescription "lab" bondedLab lastBlockSettings = .ok g ∧
      (Topology.ofGraph g lastBlockSettings).result = .ok t ∧ t.trunk.name = "bond0" ∧
      t.subnets.map (fun x => (x.net.text, x.gateway.text)) =
        [("10.10.0.0/30", "10.10.0.1"), ("255.255.255.252/30", "255.255.255.253")] ∧
      ∀ hash e, (Topology.ofGraphBy hash g lastBlockSettings).result = .error e →
        ∃ f, e = .topology f := by
  have hvalid : lastBlockSettings.Valid := by decide
  have hlab : (Graph.ofDescription "lab" bondedLab lastBlockSettings >>= fun g =>
      (Topology.ofGraph g lastBlockSettings).result.map fun t => decide (
        t.trunk.name = "bond0" ∧ t.subnets.map (fun x => (x.net.text, x.gateway.text)) =
          [("10.10.0.0/30", "10.10.0.1"), ("255.255.255.252/30", "255.255.255.253")])) =
      .ok true := by
    decide +kernel
  obtain ⟨g, hg, hlab⟩ := bind_eq_ok.mp hlab
  obtain ⟨t, ht, hlab⟩ := map_eq_ok.mp hlab
  obtain ⟨htrunk, hsubnets⟩ := of_decide_eq_true hlab
  exact ⟨hvalid, g, t, hg, ht, htrunk, hsubnets,
    (construction_of_checked "lab" bondedLab lastBlockSettings g hvalid hg).2.2.2⟩

end NetworkCompiler
