import Mathlib.Data.List.Flatten
import NetworkCompiler.Proofs.Mac
import NetworkCompiler.Proofs.Network.Consistency
import NetworkCompiler.Proofs.Text.Lines
import NetworkCompiler.Proofs.Topology.Assignments

/-!
# Assigned hardware addresses

Every assignment has a hardware address : the one that its interface declares, or one that is made
up from the label of its machine by hashing. Nothing is assumed of the hash. Declared addresses are
distinct because the graph is consistent (`nodup_declaredMacs`). Those that are made up avoid all
others (`settle_macs`) as long as candidates are left (`HasSpares`), and then no two assignments
share one (`nodup_macs`). `assigned_macs` is what follows for a whole topology, in which a candidate
is left whenever one is made up (`Topology.HasSpareCandidates`).

Physical machines bring their own hardware addresses, and the allocation ends if one does not
(`requiresMac_eq_false`).
-/

namespace NetworkCompiler

/-! ## Making up an address -/

section Fresh

variable {candidate : Nat → Mac} {used : List Mac} {fuel attempt k : Nat}

theorem freshMacFrom_notMem (hlo : attempt ≤ k) (hhi : k < attempt + fuel)
    (hk : candidate k ∉ used) : freshMacFrom candidate used fuel attempt ∉ used := by
  induction fuel generalizing attempt with
  | zero => omega
  | succ fuel ih =>
    rw [freshMacFrom]
    split
    · next hused =>
      have hne : attempt ≠ k := fun h => hk (h ▸ hused)
      exact ih (by omega) (by omega)
    · next hfree => exact hfree

theorem exists_freshMacFrom_eq (candidate : Nat → Mac) (used : List Mac) (fuel attempt : Nat) :
    ∃ k, freshMacFrom candidate used fuel attempt = candidate k := by
  induction fuel generalizing attempt with
  | zero => exact ⟨0, rfl⟩
  | succ fuel ih =>
    rw [freshMacFrom]
    split
    · exact ih (attempt + 1)
    · exact ⟨attempt, rfl⟩

/-- How many addresses can be made up for one label. -/
def candidateCount : Nat := 0x100000000

theorem freshMac_notMem {candidates : String → Nat → Mac} {label : String}
    (hk : k < candidateCount) (hfree : candidates label k ∉ used) :
    freshMac candidates label used ∉ used :=
  freshMacFrom_notMem (Nat.zero_le k) (by rwa [Nat.zero_add]) hfree

end Fresh

/-! ## Serving seats -/

section Seats

variable {policy : AllocationPolicy} {candidates : String → Nat → Mac} {pool pool' : Pool}
variable {used used' : List Mac} {x : Seat} {xs : List Seat} {a : Assignment}
variable {as : List Assignment}

/-- The hardware address of an assignment is declared by the interface of its seat, or the
interface declares none and it is one of the candidates for the label of the machine. -/
structure Seat.GetsMac (candidates : String → Nat → Mac) (x : Seat) (a : Assignment) : Prop where
  machine_eq : a.machine = x.machine
  iface_eq : a.iface = x.iface.name
  mac_eq : x.iface.mac = if a.generatedMac then none else some a.mac
  made : a.generatedMac = true → ∃ k, a.mac = candidates x.label k

theorem Seat.Serves.getsMac (h : x.Serves policy candidates pool a pool') :
    x.GetsMac candidates a := by
  obtain ⟨hmachine, hiface, -, -, hmac⟩ := h
  rcases hmac with ⟨hmade, hdeclared, -⟩ | ⟨hmade, hnone, hfresh, -⟩
  · exact ⟨hmachine, hiface, by simp [hmade, hdeclared], by simp [hmade]⟩
  · exact ⟨hmachine, hiface, by simp [hmade, hnone],
      fun _ => hfresh ▸ exists_freshMacFrom_eq _ _ _ _⟩

/-- The hardware addresses that were made up. -/
def madeMacs (as : List Assignment) : List Mac :=
  (as.filter (·.generatedMac)).map (·.mac)

/-- Wherever a hardware address is made up, some candidate is in use neither in `used` nor by an
assignment in front. -/
def HasSpares (candidates : String → Nat → Mac) : List Mac → List Seat → List Assignment → Prop
  | used, x :: xs, a :: as =>
    (a.generatedMac = true → ∃ k < candidateCount, candidates x.label k ∉ used) ∧
      HasSpares candidates (a.mac :: used) xs as
  | _, _, _ => True

theorem HasSpares.mono (h : HasSpares candidates used xs as) (hsub : used' ⊆ used) :
    HasSpares candidates used' xs as := by
  induction xs generalizing used used' as with
  | nil => trivial
  | cons x xs ih =>
    cases as with
    | nil => trivial
    | cons a as =>
      refine ⟨fun hmade => ?_, ih h.2 (List.cons_subset_cons _ hsub)⟩
      obtain ⟨k, hk, hfree⟩ := h.1 hmade
      exact ⟨k, hk, fun hmem => hfree (hsub hmem)⟩

/-- Every seat gets its hardware address, and those that are made up are distinct and new as long
as candidates last. -/
theorem settle_macs (h : (settle policy candidates pool xs).result = .ok as) :
    List.Forall₂ (Seat.GetsMac candidates) xs as ∧
      (HasSpares candidates pool.macs xs as →
        (madeMacs as).Nodup ∧ ∀ mac ∈ madeMacs as, mac ∉ pool.macs) := by
  induction xs generalizing pool as with
  | nil =>
    cases h
    exact ⟨.nil, fun _ => ⟨List.nodup_nil, by simp [madeMacs]⟩⟩
  | cons x xs ih =>
    obtain ⟨a, rest, pool', rfl, hserves, hrest⟩ := settle_cons_eq_ok h
    obtain ⟨hgets, hnew⟩ := ih hrest
    refine ⟨.cons hserves.getsMac hgets, fun hspare => ?_⟩
    rcases hserves.mac with ⟨hmade, -, hmacs⟩ | ⟨hmade, -, hfresh, hmacs⟩
    · have hmadeMacs : madeMacs (a :: rest) = madeMacs rest := by simp [madeMacs, hmade]
      rw [hmacs] at hnew
      rw [hmadeMacs]
      -- A declared address does not enter the pool, so less has to be avoided than is asked for.
      exact hnew (hspare.2.mono (List.subset_cons_self _ _))
    · have hmadeMacs : madeMacs (a :: rest) = a.mac :: madeMacs rest := by simp [madeMacs, hmade]
      obtain ⟨k, hk, hfree⟩ := hspare.1 hmade
      have hunused : a.mac ∉ pool.macs := hfresh ▸ freshMac_notMem hk hfree
      rw [hmacs] at hnew
      obtain ⟨hnd, hothers⟩ := hnew hspare.2
      simp only [List.mem_cons, not_or] at hothers
      rw [hmadeMacs]
      exact ⟨List.nodup_cons.mpr ⟨fun hmem => (hothers _ hmem).1 rfl, hnd⟩,
        List.forall_mem_cons.mpr ⟨hunused, fun m hm => (hothers m hm).2⟩⟩

/-- The hardware address that a seat declares. -/
def Seat.declaredMac? (x : Seat) : Option Mac :=
  x.iface.mac

theorem map_mac_declared (h : List.Forall₂ (Seat.GetsMac candidates) xs as) :
    (as.filter fun a => !a.generatedMac).map (·.mac) = xs.filterMap Seat.declaredMac? :=
  map_filter_of_forall₂ h fun x a hget => by
    cases hmade : a.generatedMac <;> simp [Seat.declaredMac?, hget.mac_eq, hmade]

/-- Candidates last if each time one is left beside the addresses in front. -/
theorem hasSpares_of_forall (h : List.Forall₂ (Seat.GetsMac candidates) xs as)
    (hspare : ∀ before a after, as = before ++ a :: after → a.generatedMac = true →
      ∀ x ∈ xs, a.machine = x.machine →
        ∃ k < candidateCount, candidates x.label k ∉ used ++ before.map (·.mac)) :
    HasSpares candidates used xs as := by
  induction h generalizing used with
  | nil => trivial
  | @cons x a xs as hget _ ih =>
    refine ⟨fun hmade => ?_, ih fun before b after has hmade y hy hmachine => ?_⟩
    · simpa using hspare [] a as rfl hmade x List.mem_cons_self hget.machine_eq
    · obtain ⟨k, hk, hfree⟩ := hspare (a :: before) b after (by rw [has, List.cons_append]) hmade y
        (List.mem_cons_of_mem _ hy) hmachine
      refine ⟨k, hk, fun hmem => hfree ?_⟩
      simpa [or_left_comm, or_assoc] using hmem

end Seats

/-! ## Declared addresses -/

/-- No two interfaces of a described network declare the same hardware address. -/
theorem Graph.eq_of_declared_mac {name : String} {d : Description} {s : Settings} {g : Graph}
    (hg : Graph.ofDescription name d s = .ok g) {id id' : MachineId} {m m' : Machine}
    (hm : g.machine? id = some m) (hm' : g.machine? id' = some m') {i i' : Interface}
    (hi : i ∈ m.interfaces) (hi' : i' ∈ m'.interfaces) {mac : Mac} (hmac : i.mac = some mac)
    (hmac' : i'.mac = some mac) : id = id' ∧ i = i' := by
  have hmem : ∀ {m : Machine} {i : Interface}, i ∈ m.interfaces → i.mac = some mac →
      mac ∈ m.interfaces.filterMap (·.mac) := fun hi hmac => List.mem_filterMap.mpr ⟨_, hi, hmac⟩
  have hnd := Graph.nodup_macsInUse hg
  obtain rfl : m = m' := eq_of_mem_flatMap hnd (List.mem_of_getElem? hm)
    (List.mem_of_getElem? hm') (hmem hi hmac) (hmem hi' hmac')
  have hinner := (List.nodup_flatMap.mp hnd).1 m (List.mem_of_getElem? hm)
  rw [List.filterMap_eq_flatMap_toList] at hinner
  exact ⟨Graph.id_unique hg hm hm' rfl,
    eq_of_mem_flatMap hinner hi hi' (b := mac) (by simp [hmac]) (by simp [hmac'])⟩

section Declared

variable {name : String} {d : Description} {s₀ s : Settings} {g : Graph}
variable (hg : Graph.ofDescription name d s₀ = .ok g) {xs : List Subnet}
variable (hroles : (xs.map (·.role)).Nodup)

theorem filterMap_declaredMac?_seats (ps : List (MachineId × Role)) :
    (seats g ps xs).filterMap Seat.declaredMac? =
      xs.flatMap fun y => (g.entries.filter fun e => (e.1, y.role) ∈ ps).flatMap fun e =>
        e.2.lan.filterMap (·.mac) := by
  simp only [seats, List.filterMap_flatMap, List.filterMap_map]
  rfl

theorem mem_macsInUse_of_declaredMac {id : MachineId} {m : Machine} {i : Interface} {mac : Mac}
    (hm : g.machine? id = some m) (hi : i ∈ m.interfaces) (hmac : i.mac = some mac) :
    mac ∈ macsInUse g :=
  List.mem_flatMap.mpr ⟨m, List.mem_of_getElem? hm, List.mem_filterMap.mpr ⟨i, hi, hmac⟩⟩

include hg hroles

/-- A machine is placed in one subnet, so the hardware addresses that seats declare are distinct. -/
theorem nodup_declaredMacs :
    ((seats g (placementsOf g) xs).filterMap Seat.declaredMac?).Nodup := by
  rw [filterMap_declaredMac?_seats, List.nodup_flatMap]
  constructor
  -- Within one subnet the addresses are some of those that the graph declares.
  · intro y _
    have hentries : macsInUse g = g.entries.flatMap fun e => e.2.interfaces.filterMap (·.mac) := by
      rw [macsInUse, List.flatMap_def, List.flatMap_def,
        Graph.map_entries g fun m => m.interfaces.filterMap (·.mac)]
    refine (Graph.nodup_macsInUse hg).sublist ?_
    rw [hentries]
    exact (List.filter_sublist.flatMap _).trans (List.Sublist.flatMap_right _ fun e _ =>
      (List.sublist_append_left _ _).filterMap _)
  -- An address in two subnets would belong to one machine, placed in both.
  · refine (List.pairwise_map.mp hroles).imp fun {y z} hne mac hy hz => hne ?_
    simp only [List.mem_flatMap, List.mem_filter, List.mem_filterMap, decide_eq_true_eq] at hy hz
    obtain ⟨e, ⟨he, hplace⟩, i, hi, hmac⟩ := hy
    obtain ⟨e', ⟨he', hplace'⟩, i', hi', hmac'⟩ := hz
    obtain ⟨hid, -⟩ := Graph.eq_of_declared_mac hg (Graph.mem_entries.mp he)
      (Graph.mem_entries.mp he') (List.mem_append_left _ hi) (List.mem_append_left _ hi') hmac hmac'
    exact placement_unique hplace (hid ▸ hplace')

/-- The assigned hardware addresses are distinct, and those that are made up are declared
nowhere. -/
theorem nodup_macs {hash : List UInt8 → List UInt8} {as : List Assignment}
    (h : (assignAddresses hash g s (placementsOf g) xs).result = .ok as)
    (hspare : HasSpares (Mac.derivedBy hash s.macVendor) (macsInUse g)
      (seats g (placementsOf g) xs) as) :
    (as.map (·.mac)).Nodup ∧ ∀ mac ∈ madeMacs as, mac ∉ macsInUse g := by
  obtain ⟨-, claims, -, hsettle⟩ := assignAddresses_eq_ok h
  obtain ⟨hgets, hnew⟩ := settle_macs hsettle
  obtain ⟨hmade, hunused⟩ := hnew hspare
  have hsplit : (as.map (·.mac)).Perm
      (madeMacs as ++ (seats g (placementsOf g) xs).filterMap Seat.declaredMac?) := by
    rw [← map_mac_declared hgets, madeMacs, ← List.map_append]
    exact ((List.filter_append_perm _ _).map _).symm
  refine ⟨hsplit.nodup_iff.mpr (List.nodup_append.mpr ⟨hmade, nodup_declaredMacs hg hroles, ?_⟩),
    hunused⟩
  rintro mac hmac _ hdeclared rfl
  obtain ⟨y, hy, hymac⟩ := List.mem_filterMap.mp hdeclared
  obtain ⟨-, -, m, hm, -, hi⟩ := mem_seats.mp hy
  exact hunused mac hmac (mem_macsInUse_of_declaredMac hm (List.mem_append_left _ hi) hymac)

omit hg hroles in
/-- The interface of an assignment, with the hardware address that it declares. -/
theorem exists_interface_of_assigned {hash : List UInt8 → List UInt8} {as : List Assignment}
    (h : (assignAddresses hash g s (placementsOf g) xs).result = .ok as) {a : Assignment}
    (ha : a ∈ as) :
    ∃ m i r, g.machine? a.machine = some m ∧ (a.machine, r) ∈ placementsOf g ∧ i ∈ m.lan ∧
      i.name = a.iface ∧ (i.mac = if a.generatedMac then none else some a.mac) ∧
      (a.generatedMac = true → ∃ k, a.mac = Mac.derivedBy hash s.macVendor m.label k) := by
  obtain ⟨-, claims, -, hsettle⟩ := assignAddresses_eq_ok h
  obtain ⟨y, hy, hget⟩ := exists_of_mem_right (settle_macs hsettle).1 ha
  obtain ⟨-, hplace, m, hm, hlabel, hi⟩ := mem_seats.mp hy
  exact ⟨m, y.iface, y.subnet.role, hget.machine_eq ▸ hm, hget.machine_eq ▸ hplace, hi,
    hget.iface_eq.symm, hget.mac_eq, hlabel ▸ hget.made⟩

end Declared

/-! ## Built topologies -/

namespace Topology

variable {g : Graph} {t : Topology} {candidates : String → Nat → Mac}

/-- For every machine some address that can be made up is in use nowhere. -/
def HasSpareMacs (t : Topology) (g : Graph) (vendor : MacVendor) : Prop :=
  ∀ m ∈ g.machines, ∃ k < candidateCount,
    Mac.derived vendor m.label k ∉ macsInUse g ++ t.assignments.map (·.mac)

/-- Whenever a hardware address is made up for a machine, some candidate for its label is neither
declared nor in use by an assignment in front. -/
def HasSpareCandidates (t : Topology) (g : Graph) (candidates : String → Nat → Mac) : Prop :=
  ∀ before a after, t.assignments = before ++ a :: after → a.generatedMac = true →
    ∀ m, g.machine? a.machine = some m →
      ∃ k < candidateCount, candidates m.label k ∉ macsInUse g ++ before.map (·.mac)

theorem HasSpareMacs.hasSpareCandidates {vendor : MacVendor} (h : t.HasSpareMacs g vendor) :
    t.HasSpareCandidates g (Mac.derived vendor) := by
  intro before a after hsplit _ m hm
  obtain ⟨k, hk, hfree⟩ := h m (List.mem_of_getElem? hm)
  refine ⟨k, hk, fun hmem => hfree ?_⟩
  rw [hsplit, List.map_append, ← List.append_assoc]
  exact List.mem_append_left _ hmem

theorem HasSpareCandidates.hasSpares (h : t.HasSpareCandidates g candidates) {xs : List Subnet}
    (hgets : List.Forall₂ (Seat.GetsMac candidates) (seats g (placementsOf g) xs) t.assignments) :
    HasSpares candidates (macsInUse g) (seats g (placementsOf g) xs) t.assignments := by
  refine hasSpares_of_forall hgets fun before a after hsplit hmade x hx hmachine => ?_
  obtain ⟨-, -, m, hm, hlabel, -⟩ := mem_seats.mp hx
  exact hlabel ▸ h before a after hsplit hmade m (hmachine ▸ hm)

end Topology

namespace Topology.IsBuilt

variable {name : String} {d : Description} {s : Settings} {g : Graph} {t : Topology}
variable (h : t.IsBuilt g s)
include h

/-- The interface of an assignment, with the hardware address that it declares. -/
theorem exists_interface {a : Assignment} (ha : a ∈ t.assignments) :
    ∃ m i, g.machine? a.machine = some m ∧ i ∈ m.lan ∧ i.name = a.iface ∧
      i.mac = if a.generatedMac then none else some a.mac := by
  obtain ⟨m, i, -, hm, -, hi, hname, hmac, -⟩ := exists_interface_of_assigned h.assignments ha
  exact ⟨m, i, hm, hi, hname, hmac⟩

theorem nodup_assignedMacs (hg : Graph.ofDescription name d s = .ok g)
    (hspare : t.HasSpareCandidates g (Mac.derived s.macVendor)) :
    (t.assignments.map (·.mac)).Nodup := by
  obtain ⟨-, claims, -, hsettle⟩ := assignAddresses_eq_ok h.assignments
  exact (nodup_macs hg h.nodup_roles h.assignments (hspare.hasSpares (settle_macs hsettle).1)).1

/-- A hardware address leads to the interface that was given it. -/
theorem place_eq_of_mac_eq (hg : Graph.ofDescription name d s = .ok g)
    (hspare : t.HasSpareMacs g s.macVendor) {a b : Assignment} (ha : a ∈ t.assignments)
    (hb : b ∈ t.assignments) (hmac : a.mac = b.mac) :
    a.machine = b.machine ∧ a.iface = b.iface := by
  obtain rfl : a = b :=
    List.inj_on_of_nodup_map (h.nodup_assignedMacs hg hspare.hasSpareCandidates) ha hb hmac
  exact ⟨rfl, rfl⟩

end Topology.IsBuilt

/-! ## Machines that bring their own -/

theorem Machine.is_eq_false_of_requiresMac {m : Machine} (hrouter : m.isRouter = false)
    (h : m.requiresMac = false) {r : Role} (hr : r.requiresMac = true) : m.is r = false := by
  rw [requiresMac, hrouter, Bool.not_false, Bool.true_and] at h
  simpa [Machine.is] using fun hmem => List.any_eq_false.mp h r hmem hr

/-- A machine that is placed and leaves a hardware address out is not one that has to bring it. -/
theorem requiresMac_eq_false {g : Graph} {id : MachineId} {r : Role} {m : Machine} {i : Interface}
    (h : checkDeclaredMacs g (placementsOf g) = .ok ()) (hm : g.machine? id = some m)
    (hplace : (id, r) ∈ placementsOf g) (hi : i ∈ m.lan) (hnone : i.mac = none) :
    m.requiresMac = false := by
  have hmem : (id, m) ∈ g.entries.filter fun e => (placementsOf g).any fun p => p.1 = e.1 :=
    List.mem_filter.mpr ⟨Graph.mem_entries.mpr hm,
      List.any_eq_true.mpr ⟨(id, r), hplace, by simp⟩⟩
  have hpassed := forM_eq_ok h _ hmem
  have hfound : (m.lan.find? fun i => i.mac.isNone).isSome = true :=
    List.find?_isSome.mpr ⟨i, hi, by simp [hnone]⟩
  obtain ⟨j, hj⟩ := Option.isSome_iff_exists.mp hfound
  cases hrequires : m.requiresMac with
  | false => rfl
  | true => simp [hrequires, hj] at hpassed

/-! ## Whole topologies -/

/-- The hardware addresses of a built topology, by whatever hash they are made up : no two
assignments share one; one that was not made up is declared by the interface; and one that was
made up has the configured beginning, is declared by no interface of the network, and belongs to
an interface that declares none, of a machine that is neither a device nor a dedicated server nor
a hypervisor. -/
theorem assigned_macs (hash : List UInt8 → List UInt8) (name : String) (d : Description)
    (s₀ : Settings) (g : Graph) (hg : Graph.ofDescription name d s₀ = .ok g) (s : Settings)
    (hs : s.Valid) (t : Topology) (ht : (Topology.ofGraphBy hash g s).result = .ok t)
    (hspare : t.HasSpareCandidates g (Mac.derivedBy hash s.macVendor)) :
    (t.assignments.map (·.mac)).Nodup ∧
    (∀ a ∈ t.assignments, ∃ m i, g.machine? a.machine = some m ∧ i ∈ m.lan ∧ i.name = a.iface ∧
      i.mac = (if a.generatedMac then none else some a.mac) ∧
      (a.generatedMac = true →
        m.is .device = false ∧ m.is .dedicated = false ∧ m.is .hypervisor = false)) ∧
    ∃ v, MacVendor.ofText? s.macPrefix = some v ∧
      ∀ a ∈ t.assignments, a.generatedMac = true →
        (a.mac.o1 = v.o1 ∧ a.mac.o2 = v.o2 ∧ a.mac.o3 = v.o3) ∧
        ∀ m ∈ g.machines, ∀ i ∈ m.interfaces, i.mac ≠ some a.mac := by
  obtain ⟨-, hall, -, -, hassign⟩ := Topology.ofGraphBy_eq_ok ht
  obtain ⟨hcheck, claims, -, hsettle⟩ := assignAddresses_eq_ok hassign
  obtain ⟨hnd, hunused⟩ := nodup_macs hg (hall.map_role ▸ nodup_servedRoles g) hassign
    (hspare.hasSpares (settle_macs hsettle).1)
  obtain ⟨v, hv⟩ := hs.exists_vendor
  refine ⟨hnd, fun a ha => ?_, v, hv, fun a ha hmade => ⟨?_, fun m hm i hi hmac => ?_⟩⟩
  · obtain ⟨m, i, r, hm, hplace, hi, hname, hmac, -⟩ := exists_interface_of_assigned hassign ha
    refine ⟨m, i, hm, hi, hname, hmac, fun hmade => ?_⟩
    rw [hmade, if_pos rfl] at hmac
    obtain ⟨m', hm', -, hrole⟩ := mem_placementsOf.mp hplace
    cases hm.symm.trans hm'
    have hrequires := requiresMac_eq_false hcheck hm hplace hi hmac
    have hbrings := fun {r} => Machine.is_eq_false_of_requiresMac (r := r)
      (Machine.isRouter_eq_false_of_vlanRole? hrole) hrequires
    exact ⟨hbrings rfl, hbrings rfl, hbrings rfl⟩
  · obtain ⟨m, i, r, -, -, -, -, -, hcandidate⟩ := exists_interface_of_assigned hassign ha
    obtain ⟨k, hk⟩ := hcandidate hmade
    rw [hk, Settings.macVendor, hv]
    exact ⟨rfl, rfl, rfl⟩
  · obtain ⟨id, hid⟩ := List.mem_iff_getElem?.mp hm
    exact hunused a.mac (List.mem_map_of_mem (List.mem_filter.mpr ⟨ha, hmade⟩))
      (mem_macsInUse_of_declaredMac hid hi hmac)

/-- A hypervisor with the address that would be made up first for its service, which has two
interfaces and no address. -/
def virtualLab : Description where
  servers := [
    ("files", { types := ["service"], hypervisor := some "vm",
                lan := [("lan0", {}), ("lan1", {})] }),
    ("router", { types := ["router"], lan := [("eth0", {})], wan := [("eth1", {})] }),
    ("vm", { types := ["hypervisor"],
             lan := [("lan0", { mac := some "02:4e:43:23:9d:5c" })] })]

/-- The service gets the second and the third candidate for its label. -/
theorem assigned_macs_virtual :
    Settings.default.Valid ∧ ∃ g t, Graph.ofDescription "lab" virtualLab .default = .ok g ∧
      (Topology.ofGraphBy Digest.sha256 g .default).result = .ok t ∧
      t.HasSpareCandidates g (Mac.derivedBy Digest.sha256 Settings.default.macVendor) ∧
      Mac.derived Settings.default.macVendor "files" 0 ∈ macsInUse g ∧
      t.assignments.map (·.mac) = [Mac.derived Settings.default.macVendor "files" 1,
        Mac.derived Settings.default.macVendor "files" 2,
        Mac.derived Settings.default.macVendor "files" 0] ∧
      (t.assignments.map (·.mac)).Nodup := by
  have hvalid : Settings.default.Valid := by decide
  have hlab : (Graph.ofDescription "lab" virtualLab .default >>= fun g =>
      (Topology.ofGraphBy Digest.sha256 g .default).result.map fun t => decide (
        (∀ m ∈ g.machines, Mac.derived Settings.default.macVendor m.label 3 ∉
          macsInUse g ++ t.assignments.map (·.mac)) ∧
        Mac.derived Settings.default.macVendor "files" 0 ∈ macsInUse g ∧
        t.assignments.map (·.mac) = [Mac.derived Settings.default.macVendor "files" 1,
          Mac.derived Settings.default.macVendor "files" 2,
          Mac.derived Settings.default.macVendor "files" 0])) = .ok true := by
    decide +kernel
  obtain ⟨g, hg, hlab⟩ := bind_eq_ok.mp hlab
  obtain ⟨t, ht, hlab⟩ := map_eq_ok.mp hlab
  obtain ⟨hderived, hdeclared, hmacs⟩ := of_decide_eq_true hlab
  have hspare : t.HasSpareCandidates g (Mac.derived Settings.default.macVendor) :=
    Topology.HasSpareMacs.hasSpareCandidates fun m hm => ⟨3, by decide, hderived m hm⟩
  exact ⟨hvalid, g, t, hg, ht, hspare, hdeclared, hmacs,
    (assigned_macs Digest.sha256 "lab" virtualLab .default g hg .default hvalid t ht hspare).1⟩

end NetworkCompiler
