import NetworkCompiler.Proofs.Network.Graphs
import NetworkCompiler.Proofs.Topology.Independence

/-!
# One more machine

A network and the same network with one more machine, which comes to some place among the others
(`Graph.insertAt`). If the machine is no router, has no address written down, and joins a subnet
that is there already, then the trunk, the subnets and the VLANs do not change. The seats of the
larger network are those of the smaller one with the new ones in between
(`exists_seats_insertAt`), so the assignment runs alike up to them, and what it does for them is
not seen in any other subnet. `assignments_of_insertion` says which machines keep their addresses
for sure : those before the new machine, and those in another subnet.
-/

namespace NetworkCompiler

open Ipv4 (Address Block)

/-- A graph with one more machine, which comes to place `k`. -/
def Graph.insertAt (g : Graph) (k : Nat) (m : Machine) : Graph :=
  { g with machines := g.machines.take k ++ m :: g.machines.drop k }

/-- The entry of a machine once another one has come to place `k`. -/
def shiftEntry (k : Nat) (e : MachineId × Machine) : MachineId × Machine :=
  (shiftPlace k e.1, e.2)

variable {g : Graph} {k : Nat} {m : Machine} {s : Settings}

/-! ## Places -/

section Places

variable (hk : k ≤ g.machines.length)
include hk

/-- The entries before the new one keep their places, those behind it stand one further on. -/
theorem exists_entries_insertAt : ∃ before after, g.entries = before ++ after ∧
    (g.insertAt k m).entries =
      before.map (shiftEntry k) ++ (k, m) :: after.map (shiftEntry k) ∧
    ∀ e ∈ after, k ≤ e.1 := by
  have hentries (g : Graph) : g.entries = g.machines.zipIdx.map Prod.swap := rfl
  have hlength : (g.machines.take k).length = k := List.length_take_of_le hk
  have hsplit : g.machines.zipIdx =
      (g.machines.take k).zipIdx ++ (g.machines.drop k).zipIdx k := by
    conv_lhs => rw [← List.take_append_drop k g.machines]
    rw [List.zipIdx_append, hlength, Nat.zero_add]
  refine ⟨(g.machines.take k).zipIdx.map Prod.swap, ((g.machines.drop k).zipIdx k).map Prod.swap,
    ?_, ?_, fun e he => ?_⟩
  · rw [hentries, hsplit, List.map_append]
  · rw [hentries, Graph.insertAt, List.zipIdx_append, List.zipIdx_cons, hlength,
      Nat.zero_add, List.zipIdx_succ, List.map_append, List.map_cons]
    simp only [List.map_map]
    congr 1
    · apply List.map_congr_left
      rintro ⟨n, id⟩ hn
      obtain ⟨-, hid, -⟩ := List.mem_zipIdx hn
      have hlt : id < k := by omega
      simp [shiftEntry, shiftPlace, hlt]
    · congr 1
      apply List.map_congr_left
      rintro ⟨n, id⟩ hn
      obtain ⟨hid, -, -⟩ := List.mem_zipIdx hn
      have hge : ¬id < k := by omega
      simp [shiftEntry, shiftPlace, hge]
  · obtain ⟨⟨n, id⟩, hn, rfl⟩ := List.mem_map.mp he
    exact (List.mem_zipIdx hn).1

theorem machine?_insertAt_self : (g.insertAt k m).machine? k = some m := by
  obtain ⟨before, after, -, hentries, -⟩ := exists_entries_insertAt (m := m) hk
  refine Graph.mem_entries.mp ?_
  rw [hentries]
  exact List.mem_append_right _ List.mem_cons_self

theorem machine?_insertAt {id : MachineId} {n : Machine} (hn : g.machine? id = some n) :
    (g.insertAt k m).machine? (shiftPlace k id) = some n := by
  obtain ⟨before, after, hg, hentries, -⟩ := exists_entries_insertAt (m := m) hk
  have hmem : (id, n) ∈ before ++ after := hg ▸ Graph.mem_entries.mpr hn
  have hshift := List.mem_map_of_mem (f := shiftEntry k) hmem
  refine Graph.mem_entries.mp ?_
  rw [hentries]
  rw [List.map_append] at hshift
  exact List.mem_append.mpr ((List.mem_append.mp hshift).imp_right (List.mem_cons_of_mem _))

theorem withRole_insertAt {r : Role} (hm : m.is r = false) :
    (g.insertAt k m).withRole r = (g.withRole r).map (shiftEntry k) := by
  obtain ⟨before, after, hg, hentries, -⟩ := exists_entries_insertAt (m := m) hk
  rw [Graph.withRole, Graph.withRole, hentries, hg, List.filter_append,
    List.filter_cons_of_neg (by simp [hm]), List.filter_map, List.filter_map, List.filter_append,
    List.map_append]
  rfl

end Places

/-! ## Seats -/

/-- Whether a machine is placed by a role. -/
def Machine.IsPlacedBy (n : Machine) (r : Role) : Prop :=
  n.lan ≠ [] ∧ n.vlanRole? = some r

instance (n : Machine) (r : Role) : Decidable (n.IsPlacedBy r) :=
  inferInstanceAs (Decidable (_ ∧ _))

/-- The seats of a machine in a subnet. -/
def Subnet.seatsOf (x : Subnet) (e : MachineId × Machine) : List Seat :=
  if e.2.IsPlacedBy x.role then e.2.lan.map fun i => ⟨x, e.1, e.2.label, i⟩ else []

theorem mem_placementsOf_iff {e : MachineId × Machine} (he : e ∈ g.entries) {r : Role} :
    (e.1, r) ∈ placementsOf g ↔ e.2.IsPlacedBy r := by
  have hm := Graph.mem_entries.mp he
  rw [mem_placementsOf]
  constructor
  · rintro ⟨n, hn, hplaced⟩
    cases hm.symm.trans hn
    exact hplaced
  · exact fun hplaced => ⟨e.2, hm, hplaced⟩

theorem seats_eq (xs : List Subnet) :
    seats g (placementsOf g) xs = xs.flatMap fun x => g.entries.flatMap x.seatsOf := by
  refine List.flatMap_congr fun x _ => ?_
  rw [flatMap_filter]
  refine List.flatMap_congr fun e he => ?_
  simp only [Subnet.seatsOf, mem_placementsOf_iff he, decide_eq_true_eq]

theorem seatsOf_shiftEntry (x : Subnet) (e : MachineId × Machine) :
    x.seatsOf (shiftEntry k e) = (x.seatsOf e).map (Seat.shift k) := by
  rw [Subnet.seatsOf, Subnet.seatsOf, apply_ite (List.map (Seat.shift k)), List.map_map]
  rfl

theorem of_mem_seatsOf {x : Subnet} {e : MachineId × Machine} {y : Seat} (hy : y ∈ x.seatsOf e) :
    y.subnet = x ∧ y.machine = e.1 ∧ e.2.IsPlacedBy x.role ∧ y.iface ∈ e.2.lan := by
  unfold Subnet.seatsOf at hy
  split at hy
  · next hplaced =>
    obtain ⟨i, hi, rfl⟩ := List.mem_map.mp hy
    exact ⟨rfl, rfl, hplaced, hi⟩
  · cases hy

section Seats

variable (hk : k ≤ g.machines.length)
include hk

/-- In one subnet, the seats of the new machine come in between. -/
theorem exists_seatsOf_insertAt (x : Subnet) : ∃ before after : List Seat,
    g.entries.flatMap x.seatsOf = before ++ after ∧
    (g.insertAt k m).entries.flatMap x.seatsOf =
      before.map (Seat.shift k) ++ x.seatsOf (k, m) ++ after.map (Seat.shift k) ∧
    ∀ y ∈ after, k ≤ y.machine := by
  obtain ⟨before, after, hg, hentries, hafter⟩ := exists_entries_insertAt (m := m) hk
  have hshift : ∀ es : List (MachineId × Machine), (es.map (shiftEntry k)).flatMap x.seatsOf =
      (es.flatMap x.seatsOf).map (Seat.shift k) := fun es => by
    rw [List.flatMap_map, List.map_flatMap]
    exact List.flatMap_congr fun e _ => seatsOf_shiftEntry x e
  refine ⟨before.flatMap x.seatsOf, after.flatMap x.seatsOf, ?_, ?_, fun y hy => ?_⟩
  · rw [hg, List.flatMap_append]
  · rw [hentries, List.flatMap_append, List.flatMap_cons, hshift, hshift, List.append_assoc]
  · obtain ⟨e, he, hy⟩ := List.mem_flatMap.mp hy
    rw [(of_mem_seatsOf hy).2.1]
    exact hafter e he

/-- Subnets that the new machine is not in keep their seats. -/
theorem seats_insertAt_of_not_placed {xs : List Subnet}
    (hxs : ∀ x ∈ xs, ¬m.IsPlacedBy x.role) :
    seats (g.insertAt k m) (placementsOf (g.insertAt k m)) xs =
      (seats g (placementsOf g) xs).map (Seat.shift k) := by
  rw [seats_eq, seats_eq, List.map_flatMap]
  refine List.flatMap_congr fun x hx => ?_
  obtain ⟨before, after, hold, hnew, -⟩ := exists_seatsOf_insertAt (m := m) hk x
  rw [hold, hnew, Subnet.seatsOf, if_neg (hxs x hx), List.append_nil, List.map_append]

/-- The seats of the new machine come in between the others. Behind them, no seat in their subnet
belongs to a machine that stands before the new one. -/
theorem exists_seats_insertAt {xs : List Subnet} (hnd : (xs.map (·.role)).Nodup) :
    ∃ before new after : List Seat, seats g (placementsOf g) xs = before ++ after ∧
      seats (g.insertAt k m) (placementsOf (g.insertAt k m)) xs =
        before.map (Seat.shift k) ++ (new ++ after.map (Seat.shift k)) ∧
      (∀ y ∈ new, y.subnet ∈ xs ∧ y.machine = k ∧ m.IsPlacedBy y.subnet.role ∧ y.iface ∈ m.lan) ∧
      ∀ y ∈ after, m.IsPlacedBy y.subnet.role → k ≤ y.machine := by
  by_cases hplaced : ∃ x ∈ xs, m.IsPlacedBy x.role
  · obtain ⟨x, hx, hplaced⟩ := hplaced
    obtain ⟨xs₁, xs₂, rfl⟩ := List.append_of_mem hx
    have hother : ∀ y ∈ xs₁ ++ xs₂, ¬m.IsPlacedBy y.role := fun y hy hy' => by
      have hrole : y.role = x.role := Option.some.inj (hy'.2.symm.trans hplaced.2)
      rw [List.map_append, List.map_cons, List.nodup_middle, List.nodup_cons,
        ← List.map_append] at hnd
      exact hnd.1 (hrole ▸ List.mem_map_of_mem hy)
    obtain ⟨before, after, hold, hnew, hafter⟩ := exists_seatsOf_insertAt (m := m) hk x
    have hsplit : ∀ g : Graph, seats g (placementsOf g) (xs₁ ++ x :: xs₂) =
        seats g (placementsOf g) xs₁ ++
          (g.entries.flatMap x.seatsOf ++ seats g (placementsOf g) xs₂) := fun g => by
      simp only [seats_eq, List.flatMap_append, List.flatMap_cons]
    refine ⟨seats g (placementsOf g) xs₁ ++ before, x.seatsOf (k, m),
      after ++ seats g (placementsOf g) xs₂, ?_, ?_, fun y hy => ?_, fun y hy hy' => ?_⟩
    · rw [hsplit, hold, List.append_assoc, List.append_assoc]
    · have h₁ := fun y hy => hother y (List.mem_append_left xs₂ hy)
      have h₂ := fun y hy => hother y (List.mem_append_right xs₁ hy)
      rw [hsplit, hnew, seats_insertAt_of_not_placed hk h₁, seats_insertAt_of_not_placed hk h₂]
      simp only [List.map_append, List.append_assoc]
    · obtain ⟨rfl, hplace, hplaced, hi⟩ := of_mem_seatsOf hy
      exact ⟨hx, hplace, hplaced, hi⟩
    · rcases List.mem_append.mp hy with hy | hy
      · exact hafter y hy
      · exact absurd hy' (hother _ (List.mem_append_right _ (mem_seats.mp hy).1))
  · have hnone : ∀ x ∈ xs, ¬m.IsPlacedBy x.role := fun x hx h => hplaced ⟨x, hx, h⟩
    refine ⟨seats g (placementsOf g) xs, [], [], by simp, ?_, by simp, by simp⟩
    rw [seats_insertAt_of_not_placed hk hnone]
    simp

end Seats

/-! ## What does not change -/

/-- A machine that joins a network without a wish : it is no router, nothing about it claims an
address or a block, and its subnet is there already. -/
structure Machine.IsNewcomer (m : Machine) (g : Graph) : Prop where
  isRouter : m.isRouter = false
  lan : ∀ i ∈ m.lan, i.addresses = []
  wan : ∀ i ∈ m.wan, i.addresses = [] ∧ i.subnet = none
  populated : ∀ r, m.IsPlacedBy r → r ∈ (placementsOf g).map (·.2)

theorem mem_populated_iff {r : Role} :
    r ∈ (placementsOf g).map (·.2) ↔ ∃ n ∈ g.machines, n.IsPlacedBy r := by
  rw [List.mem_map]
  constructor
  · rintro ⟨⟨id, r⟩, hplace, rfl⟩
    obtain ⟨n, hn, hplaced⟩ := mem_placementsOf.mp hplace
    exact ⟨n, List.mem_of_getElem? hn, hplaced⟩
  · rintro ⟨n, hn, hplaced⟩
    obtain ⟨id, hid⟩ := List.mem_iff_getElem?.mp hn
    exact ⟨(id, r), mem_placementsOf.mpr ⟨n, hid, hplaced⟩, rfl⟩

theorem mem_machines_insertAt {n : Machine} :
    n ∈ (g.insertAt k m).machines ↔ n = m ∨ n ∈ g.machines := by
  have hsplit : n ∈ g.machines ↔ n ∈ g.machines.take k ++ g.machines.drop k := by
    rw [List.take_append_drop]
  rw [hsplit, Graph.insertAt, List.mem_append, List.mem_append, List.mem_cons]
  exact or_left_comm

theorem flatMap_machines_insertAt {α : Type} {f : Machine → List α} (hm : f m = []) :
    (g.insertAt k m).machines.flatMap f = g.machines.flatMap f := by
  conv_rhs => rw [← List.take_append_drop k g.machines]
  rw [Graph.insertAt, List.flatMap_append, List.flatMap_append, List.flatMap_cons, hm,
    List.nil_append]

namespace Machine.IsNewcomer

variable (h : m.IsNewcomer g)
include h

theorem wanNetworks_insertAt : wanNetworks (g.insertAt k m) = wanNetworks g :=
  flatMap_machines_insertAt (List.filterMap_eq_nil_iff.mpr fun i hi => (h.wan i hi).2)

theorem wanClaims_insertAt : wanClaims (g.insertAt k m) = wanClaims g :=
  flatMap_machines_insertAt (List.flatMap_eq_nil_iff.mpr fun i hi => by
    rw [(h.wan i hi).1, List.map_nil])

theorem servedRoles_insertAt : (g.insertAt k m).servedRoles = g.servedRoles := by
  refine List.filter_congr fun r _ => ?_
  have hpopulated : r ∈ (placementsOf (g.insertAt k m)).map (·.2) ↔
      r ∈ (placementsOf g).map (·.2) := by
    rw [mem_populated_iff]
    constructor
    · rintro ⟨n, hn, hplaced⟩
      rcases mem_machines_insertAt.mp hn with rfl | hn
      · exact h.populated r hplaced
      · exact mem_populated_iff.mpr ⟨n, hn, hplaced⟩
    · intro hr
      obtain ⟨n, hn, hplaced⟩ := mem_populated_iff.mp hr
      exact ⟨n, mem_machines_insertAt.mpr (.inr hn), hplaced⟩
  simp only [Role.isServed, hpopulated]

theorem findRouter_insertAt (hk : k ≤ g.machines.length) {e : MachineId × Machine}
    (he : findRouter g = .ok e) : findRouter (g.insertAt k m) = .ok (shiftEntry k e) := by
  unfold findRouter at he ⊢
  rw [withRole_insertAt hk h.isRouter]
  split at he
  · cases he
  · next heq =>
    cases he
    rw [heq]
    rfl
  · cases he

/-- The new machine declares no address, so the declared addresses are claimed as before. -/
theorem foldlM_claimExplicit {policy : AllocationPolicy} {claims : List Claim}
    {before new after : List Seat} (hnew : ∀ y ∈ new, y.iface ∈ m.lan) :
    (before.map (Seat.shift k) ++ (new ++ after.map (Seat.shift k))).foldlM
        (claimExplicit policy) claims =
      (before ++ after).foldlM (claimExplicit policy) claims := by
  have hnone : ∀ claims : List Claim, new.foldlM (claimExplicit policy) claims = .ok claims := by
    intro claims
    induction new with
    | nil => rfl
    | cons y ys ih =>
      obtain ⟨hy, hys⟩ := List.forall_mem_cons.mp hnew
      rw [List.foldlM_cons, claimExplicit, h.lan _ hy]
      exact ih hys
  have hshift : ∀ (ys : List Seat) (claims : List Claim),
      (ys.map (Seat.shift k)).foldlM (claimExplicit policy) claims =
        ys.foldlM (claimExplicit policy) claims := fun ys claims => List.foldlM_map
  simp only [List.foldlM_append, hshift, hnone]
  rfl

theorem initialClaims_insertAt (policy : AllocationPolicy) (xs : List Subnet) :
    initialClaims (g.insertAt k m) policy xs = initialClaims g policy xs := by
  unfold initialClaims
  rw [h.wanClaims_insertAt]

end Machine.IsNewcomer

/-! ## Two topologies -/

/-- Whether a machine is out of the way of a new one at place `k` : it stands before it, or it is
in another subnet. -/
def IsUnaffected (t' : Topology) (k id : Nat) : Prop :=
  id < k ∨ t'.subnetOf? (shiftPlace k id) ≠ t'.subnetOf? k

/-- What an interface is assigned once there is one more machine. -/
def KeepsAddress (t' : Topology) (k : Nat) (a b : Assignment) : Prop :=
  b.machine = shiftPlace k a.machine ∧ b.iface = a.iface ∧
    (IsUnaffected t' k a.machine → b.address = a.address)

/-- The hosts that a machine may be given. -/
def Machine.MayGet (m : Machine) (xs : List Subnet) (a : Address) : Prop :=
  ∃ x ∈ xs, m.IsPlacedBy x.role ∧ x.gateway.value < a.value ∧ a.value < x.net.broadcast.value

theorem Topology.IsBuilt.contains_of_between {t : Topology} (h : t.IsBuilt g s) (hs : s.Valid)
    {x : Subnet} (hx : x ∈ t.subnets) {a : Address} (hlo : x.gateway.value < a.value)
    (hhi : a.value < x.net.broadcast.value) : x.net.contains a = true :=
  h.allocations.contains_of_between hs hx hlo hhi

/-- A seat in another subnet avoids the hosts that a machine may be given. -/
theorem Topology.IsBuilt.avoids {t : Topology} (h : t.IsBuilt g s) (hs : s.Valid) {y : Seat}
    (hy : y.subnet ∈ t.subnets) (hother : ¬m.IsPlacedBy y.subnet.role) :
    y.Avoids (m.MayGet t.subnets) := by
  rintro a hlo hhi ⟨x, hx, hplaced, hlo', hhi'⟩
  have hxy : x = y.subnet := h.allocations.eq_of_contains hx hy
    (h.contains_of_between hs hx hlo' hhi') (h.contains_of_between hs hy hlo hhi)
  exact hother (hxy ▸ hplaced)

theorem Seat.within {xs : List Subnet} {y : Seat} (hy : y.subnet ∈ xs)
    (hplaced : m.IsPlacedBy y.subnet.role) : y.Within (m.MayGet xs) :=
  fun _ hlo hhi => ⟨y.subnet, hy, hplaced, hlo, hhi⟩

section Topologies

variable {t t' : Topology} (hm : m.IsNewcomer g) (h : t.IsBuilt g s)
  (h' : t'.IsBuilt (g.insertAt k m) s)
include hm h h'

theorem subnets_insertAt : t'.subnets = t.subnets := by
  have hall := h'.allocations
  rw [hm.wanNetworks_insertAt, hm.servedRoles_insertAt] at hall
  exact hall.unique h.allocations

variable (hk : k ≤ g.machines.length)
include hk

theorem router_insertAt : t'.router = shiftPlace k t.router ∧ t'.trunk = t.trunk ∧
    t'.bondMembers = t.bondMembers ∧ t'.vlans = t.vlans := by
  obtain ⟨r, hr, htrunk, hvlans⟩ := h.router
  obtain ⟨r', hr', htrunk', hvlans'⟩ := h'.router
  obtain ⟨hrouter, rfl⟩ := Prod.mk.inj
    (Except.ok.inj (hr'.symm.trans (hm.findRouter_insertAt hk hr)))
  obtain ⟨htrunk_eq, hmembers⟩ := Prod.mk.inj (Except.ok.inj (htrunk'.symm.trans htrunk))
  rw [subnets_insertAt hm h h', htrunk_eq] at hvlans'
  have hunique : Relator.RightUnique fun (x : Subnet) (i : Interface) =>
      vlanInterface r'.label t.trunk.name x = .ok i := fun _ _ _ hi hj =>
    Except.ok.inj (hi.symm.trans hj)
  exact ⟨hrouter, htrunk_eq, hmembers, List.right_unique_forall₂' hunique hvlans' hvlans⟩

/-- A machine that stands behind the new one in its subnet is in its way. -/
theorem not_isUnaffected {y : Seat} (hy : y ∈ seats g (placementsOf g) t.subnets)
    (hplaced : m.IsPlacedBy y.subnet.role) (hplace : k ≤ y.machine) :
    ¬IsUnaffected t' k y.machine := by
  obtain ⟨hsubnet, hrole, -⟩ := mem_seats.mp hy
  obtain ⟨n, hn, hn'⟩ := mem_placementsOf.mp hrole
  rw [← subnets_insertAt hm h h'] at hsubnet
  have hself : t'.subnetOf? k = some y.subnet := h'.subnetOf?_eq_some hsubnet
    (mem_placementsOf.mpr ⟨m, machine?_insertAt_self hk, hplaced⟩)
  have hother : t'.subnetOf? (shiftPlace k y.machine) = some y.subnet :=
    h'.subnetOf?_eq_some hsubnet (mem_placementsOf.mpr ⟨n, machine?_insertAt hk hn, hn'⟩)
  rintro (hlt | hne)
  · exact absurd hlt (Nat.not_lt.mpr hplace)
  · exact hne (hother.trans hself.symm)

/-- Beside the assignments of the new machine, the larger topology has those of the smaller one,
in the same order. The runs agree on all claims up to the seats of the new machine, and from there
on outside its subnet. -/
theorem forall₂_assignments_insertAt (hs : s.Valid) :
    List.Forall₂ (KeepsAddress t' k) t.assignments
      (t'.assignments.filter fun a => a.machine ≠ k) := by
  obtain ⟨-, claims, hclaims, hsettle⟩ := assignAddresses_eq_ok h.assignments
  obtain ⟨-, claims', hclaims', hsettle'⟩ := assignAddresses_eq_ok h'.assignments
  obtain ⟨before, new, after, hold, hnew, hnewcomer, hafter⟩ :=
    exists_seats_insertAt (m := m) hk h.nodup_roles
  rw [subnets_insertAt hm h h', hnew] at hclaims' hsettle'
  rw [hm.initialClaims_insertAt, hm.foldlM_claimExplicit fun y hy => (hnewcomer y hy).2.2.2,
    ← hold, hclaims] at hclaims'
  cases hclaims'
  rw [hold] at hsettle
  have hmem : ∀ y ∈ after, y ∈ seats g (placementsOf g) t.subnets := fun y hy =>
    hold ▸ List.mem_append_right _ hy
  have hway : ∀ y ∈ after, y.Avoids (m.MayGet t.subnets) ∨ y.Within (m.MayGet t.subnets) := by
    intro y hy
    have hsubnet := (mem_seats.mp (hmem y hy)).1
    by_cases hplaced : m.IsPlacedBy y.subnet.role
    · exact .inr (y.within hsubnet hplaced)
    · exact .inl (h.avoids hs hsubnet hplaced)
  obtain ⟨as₁, rest, bs₁, rest', pool₁, pool₁', has, hbs, halike₁, hagree₁, hrest, hrest'⟩ :=
    settle_agree (N := fun _ => False) hsettle hsettle' (.refl claims)
      fun y _ => .inl fun _ _ _ => id
  obtain ⟨es, rest'', pool₂, rfl, hes, hagree₂, hrest''⟩ := settle_more hrest' fun y hy =>
    ⟨(hnewcomer y hy).2.1, y.within (hnewcomer y hy).1 (hnewcomer y hy).2.2.1⟩
  have hpools : AgreeOutside (m.MayGet t.subnets) s.policy pool₁.claims pool₂.claims :=
    (hagree₁.mono fun _ => False.elim).trans hagree₂
  rw [← List.append_nil after] at hrest
  rw [← List.append_nil (after.map _)] at hrest''
  obtain ⟨as₂, rest₂, bs₂, rest₂', _, _, rfl, rfl, halike₂, -, hnil, hnil'⟩ :=
    settle_agree hrest hrest'' hpools hway
  cases hnil
  cases hnil'
  have hplaces : ∀ {N xs as bs}, List.Forall₂ (GetsAlike N k xs) as bs →
      ∀ b ∈ bs, (decide (b.machine ≠ k)) = true := fun halike b hb => by
    obtain ⟨a, -, hplace, -⟩ := exists_of_mem_right halike hb
    simpa [hplace] using shiftPlace_ne k a.machine
  rw [has, hbs, List.filter_append, List.filter_append, List.append_nil, List.append_nil,
    List.filter_eq_self.mpr (hplaces halike₁), List.filter_eq_self.mpr (hplaces halike₂),
    List.filter_eq_nil_iff.mpr fun e he => by simp [hes e he], List.nil_append]
  refine List.rel_append (halike₁.imp ?_) (halike₂.imp ?_)
  · rintro a b ⟨hplace, hiface, y, -, -, -, haddress⟩
    exact ⟨hplace, hiface, fun _ => haddress fun _ _ _ => id⟩
  · rintro a b ⟨hplace, hiface, y, hy, hmachine, -, haddress⟩
    refine ⟨hplace, hiface, fun hfree => haddress (h.avoids hs ?_ fun hplaced => ?_)⟩
    · exact (mem_seats.mp (hmem y hy)).1
    · rw [hmachine] at hfree
      exact not_isUnaffected hm h h' hk (hmem y hy) hplaced (hafter y hy hplaced) hfree

/-- An unaffected machine keeps the addresses of its interfaces. -/
theorem assignmentsOf_insertAt (hs : s.Valid) {id : MachineId} (hid : IsUnaffected t' k id) :
    (t'.assignmentsOf (shiftPlace k id)).map (fun a => (a.iface, a.address)) =
      (t.assignmentsOf id).map fun a => (a.iface, a.address) := by
  have hfilter : t'.assignmentsOf (shiftPlace k id) =
      (t'.assignments.filter fun a => a.machine ≠ k).filter
        fun a => a.machine = shiftPlace k id := by
    rw [Topology.assignmentsOf, List.filter_filter]
    refine List.filter_congr fun a _ => ?_
    by_cases ha : a.machine = shiftPlace k id <;> simp [ha, shiftPlace_ne]
  have hmachine : ∀ a ∈ t.assignmentsOf id, a.machine = id := fun a ha =>
    of_decide_eq_true (List.mem_filter.mp ha).2
  have halike := forall₂_filter (p := fun a => a.machine = id)
    (q := fun a => a.machine = shiftPlace k id) (forall₂_assignments_insertAt hm h h' hk hs)
    fun a b hab => by simp [hab.1, shiftPlace_inj]
  rw [hfilter]
  refine (map_eq_map_of_forall₂ ((List.forall₂_and_left _ _).mpr ⟨hmachine, halike⟩) ?_).symm
  rintro a b ⟨rfl, -, hiface, haddress⟩
  rw [hiface, haddress hid]

theorem addressesOf_insertAt (hs : s.Valid) {id : MachineId} (hid : IsUnaffected t' k id) :
    t'.addressesOf (shiftPlace k id) = t.addressesOf id := by
  have hrouter : shiftPlace k id = t'.router ↔ id = t.router := by
    rw [(router_insertAt hm h h' hk).1, shiftPlace_inj]
  have hassigned := congrArg (List.map Prod.snd) (assignmentsOf_insertAt hm h h' hk hs hid)
  rw [List.map_map, List.map_map] at hassigned
  rw [Topology.addressesOf, Topology.addressesOf, subnets_insertAt hm h h']
  exact if_congr hrouter rfl hassigned

end Topologies

/-- One more machine in a network : if it is no router, declares no inner address and joins a
subnet that has members, then the trunk, the subnets, the VLANs and the routing rules stay as they
are, and every interface of a machine that stands before it or in another subnet keeps its
address. -/
theorem assignments_of_insertion (name : String) (d : Description) (s₀ : Settings) (g : Graph)
    (k : Nat) (hk : k ≤ g.machines.length) (m : Machine)
    (hg : Graph.ofDescription name d s₀ = .ok (g.insertAt k m)) (hrouter : m.isRouter = false)
    (hlan : ∀ i ∈ m.lan, i.addresses = [])
    (hpopulated : ∀ r, m.IsPlacedBy r → r ∈ (placementsOf g).map (·.2)) (s : Settings)
    (hs : s.Valid) (t t' : Topology) (ht : (Topology.ofGraph g s).result = .ok t)
    (ht' : (Topology.ofGraph (g.insertAt k m) s).result = .ok t') :
    (g.insertAt k m).machine? k = some m ∧ t'.router = shiftPlace k t.router ∧
    t'.trunk = t.trunk ∧ t'.bondMembers = t.bondMembers ∧ t'.subnets = t.subnets ∧
    t'.vlans = t.vlans ∧ t'.routingRules = t.routingRules ∧
    ∀ id n, g.machine? id = some n →
      (g.insertAt k m).machine? (shiftPlace k id) = some n ∧
      (n.isRouter = false → (t.assignmentsOf id).map (·.iface) = n.lan.map (·.name)) ∧
      (id < k ∨ t'.subnetOf? (shiftPlace k id) ≠ t'.subnetOf? k →
        (t'.assignmentsOf (shiftPlace k id)).map (fun a => (a.iface, a.address)) =
            (t.assignmentsOf id).map (fun a => (a.iface, a.address)) ∧
          t'.addressesOf (shiftPlace k id) = t.addressesOf id) := by
  have hself := machine?_insertAt_self (m := m) hk
  have hm : m.IsNewcomer g := ⟨hrouter, hlan, fun i hi =>
    Graph.unfixed_of_mem_wan hg (List.mem_of_getElem? hself) hrouter hi, hpopulated⟩
  have h := Topology.isBuilt_of_ofGraph ht
  have h' := Topology.isBuilt_of_ofGraph ht'
  have hsubnets := subnets_insertAt hm h h'
  obtain ⟨hplace, htrunk, hmembers, hvlans⟩ := router_insertAt hm h h' hk
  refine ⟨hself, hplace, htrunk, hmembers, hsubnets, hvlans, ?_, fun id n hn => ?_⟩
  · rw [h.routingRules, h'.routingRules, hsubnets]
  · have hn' := machine?_insertAt (m := m) hk hn
    refine ⟨hn', fun hnrouter => ?_, fun hid =>
      ⟨assignmentsOf_insertAt hm h h' hk hs hid, addressesOf_insertAt hm h h' hk hs hid⟩⟩
    have hdeclared := Graph.isDeclared hg (List.mem_of_getElem? hn')
    exact (map_eq_map_of_forall₂ (h.assignmentsOf_of_isDeclared hn hdeclared hnrouter)
      fun i a hia => hia.1.symm).symm

/-- A router, two servers and a printer. -/
def smallLab : Description :=
  { describedLab with internalDevices := [("printer", { macs := ["02:00:00:00:00:03"] })] }

/-- A third server, which comes behind the first. -/
def storageServer : Machine where
  label := "nas"
  roles := [.server, .dedicated]
  fqdn := "nas.lan"
  lan := [{ Interface.new "lan0" .dhcp .lan with mac := some ⟨2, 0, 0, 0, 0, 4⟩ }]

/-- The same network with the third server. -/
def grownLab : Description :=
  { smallLab with servers := [
      ("mail", { types := ["dedicated"], lan := [("lan0", { mac := some "02:00:00:00:00:02" })] }),
      ("nas", { types := ["dedicated"], lan := [("lan0", { mac := some "02:00:00:00:00:04" })] }),
      ("router", { types := ["router"], wan := [("eth1", {})], lan := [("eth0", {})] }),
      ("web", { types := ["dedicated"],
                lan := [("lan0",
                  { mac := some "02:00:00:00:00:01", address := some "10.10.0.2" })] })] }

theorem assignments_of_insertion_grown :
    Settings.default.Valid ∧ storageServer.isRouter = false ∧
    (∀ i ∈ storageServer.lan, i.addresses = []) ∧ ∃ g t t', 1 ≤ g.machines.length ∧
      Graph.ofDescription "lab" grownLab .default = .ok (g.insertAt 1 storageServer) ∧
      (∀ r, storageServer.IsPlacedBy r → r ∈ (placementsOf g).map (·.2)) ∧
      (Topology.ofGraph g .default).result = .ok t ∧
      (Topology.ofGraph (g.insertAt 1 storageServer) .default).result = .ok t' ∧
      t.assignments.map (·.address.text) = ["10.10.0.3", "10.10.0.2", "10.20.0.2"] ∧
      t'.assignments.map (·.address.text) =
        ["10.10.0.3", "10.10.0.4", "10.10.0.2", "10.20.0.2"] ∧
      t'.subnets = t.subnets ∧ t'.addressesOf 0 = t.addressesOf 0 := by
  have hvalid : Settings.default.Valid := by decide
  have hgraphs : (Graph.ofDescription "lab" smallLab .default).map
      (fun g => (g.insertAt 1 storageServer, g.machines.length, (placementsOf g).map (·.2))) =
      (Graph.ofDescription "lab" grownLab .default).map
        fun g' => (g', 4, [.server, .server, .internalOnly]) := by
    decide +kernel
  have hruns : (Graph.ofDescription "lab" smallLab .default >>= fun g =>
      (Topology.ofGraph g .default).result >>= fun t =>
        (Topology.ofGraph (g.insertAt 1 storageServer) .default).result.map fun t' =>
          (t.assignments.map (·.address.text), t'.assignments.map (·.address.text))) =
      .ok (["10.10.0.3", "10.10.0.2", "10.20.0.2"],
        ["10.10.0.3", "10.10.0.4", "10.10.0.2", "10.20.0.2"]) := by
    decide +kernel
  obtain ⟨g, hg, hruns⟩ := bind_eq_ok.mp hruns
  obtain ⟨t, ht, hruns⟩ := bind_eq_ok.mp hruns
  obtain ⟨t', ht', htexts⟩ := map_eq_ok.mp hruns
  obtain ⟨htext, htext'⟩ := Prod.mk.inj htexts
  rw [hg] at hgraphs
  obtain ⟨g', hg', hgraphs⟩ := map_eq_ok.mp hgraphs.symm
  obtain ⟨rfl, hrest⟩ := Prod.mk.inj hgraphs
  obtain ⟨hlength, hroles⟩ := Prod.mk.inj hrest
  have hk : 1 ≤ g.machines.length := hlength ▸ by decide
  have hlan : ∀ i ∈ storageServer.lan, i.addresses = [] := by decide
  have hpopulated : ∀ r, storageServer.IsPlacedBy r → r ∈ (placementsOf g).map (·.2) := by
    rw [← hroles]
    rintro r ⟨-, hr⟩
    obtain rfl : Role.server = r := Option.some.inj hr
    decide
  obtain ⟨-, -, -, -, hsubnets, -, -, hkept⟩ := assignments_of_insertion "lab" grownLab .default g 1
    hk storageServer hg' (by decide) hlan hpopulated .default hvalid t t' ht ht'
  obtain ⟨mail, hmail⟩ : ∃ n, g.machine? 0 = some n := ⟨_, List.getElem?_eq_getElem (by omega)⟩
  obtain ⟨-, -, hfirst⟩ := hkept 0 mail hmail
  exact ⟨hvalid, by decide, hlan, g, t, t', hk, hg', hpopulated, ht, ht', htext, htext', hsubnets,
    (hfirst (.inl Nat.one_pos)).2⟩

end NetworkCompiler
