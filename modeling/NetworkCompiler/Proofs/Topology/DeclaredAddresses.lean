import Mathlib.Data.List.Find
import Mathlib.Data.List.Induction
import NetworkCompiler.Proofs.Network.InnerInterfaces
import NetworkCompiler.Proofs.Topology.Policies

/-!
# Declared addresses

Which declared addresses are refused, and with which error. A seat is refused (`Seat.Refused`) for
an address that is no host of its subnet, and for one that is taken already (`Graph.IsTaken`) : by
a gateway, by a seat before it, under the network-wide policy by an outer interface. As long as no
seat was refused, the claims within a subnet are on addresses of that subnet only, so whoever
claimed an address last is its holder under both policies (`holder?_claimsAfter`). Hence a step of
the claiming fails exactly for a seat that is refused (`claimExplicit_eq_error`), and all of it for
the first such seat (`claimDeclared_eq_error`). `declared_addresses_refused` puts this together for
a network that comes as far as the assignment (`Graph.ReachesAssignment`).
-/

namespace NetworkCompiler

open Ipv4 (Address Block)

/-! ## Reaching the assignment -/

section Reaching

variable {g : Graph} {s : Settings} {xs : List Subnet}

/-- The construction for a network comes as far as the assignment of addresses, with the subnets
`xs`. -/
def Graph.ReachesAssignment (g : Graph) (s : Settings) (xs : List Subnet) : Prop :=
  ∃ id m trunk bonded built, findRouter g = .ok (id, m) ∧
    buildTrunk m.label m.lan = .ok (trunk, bonded) ∧
    (buildVlans g s m.label trunk.name ((placementsOf g).map (·.2)) []
      (vlanRoles g.autoguest)).result = .ok built ∧
    xs = built.map (·.1)

theorem Graph.ReachesAssignment.allocations (h : g.ReachesAssignment s xs) :
    Allocations s (wanNetworks g) [] g.servedRoles xs := by
  obtain ⟨_, _, _, _, built, -, -, hbuilt, rfl⟩ := h
  exact (buildVlans_eq_ok.mp hbuilt).1

/-- The construction ends with the error of the assignment that it reaches. -/
theorem Graph.ReachesAssignment.ofGraph_eq_error (h : g.ReachesAssignment s xs)
    {e : TopologyError}
    (he : (assignAddresses Digest.sha256 g s (placementsOf g) xs).result = .error e) :
    (Topology.ofGraph g s).result = .error (.topology e) := by
  obtain ⟨id, m, trunk, bonded, built, hrouter, htrunk, hbuilt, rfl⟩ := h
  refine Traced.result_bind_eq_error.mpr (Or.inr ⟨_, ofTopology_eq_ok.mpr hrouter, ?_⟩)
  refine Traced.result_bind_eq_error.mpr (Or.inr ⟨_, ofInput_eq_ok.mpr htrunk, ?_⟩)
  refine Traced.result_bind_eq_error.mpr (Or.inr ⟨_, hbuilt, ?_⟩)
  exact Traced.result_bind_eq_error.mpr (Or.inl (mapError_eq_error.mpr ⟨e, he, rfl⟩))

/-- Subnets are refused for want of room only. -/
theorem not_isOther_of_buildVlans {label trunk : String} {populated : List Role}
    {taken : List Subnet} {roles : List Role} {e : TopologyError}
    (h : (buildVlans g s label trunk populated taken roles).result = .error (.topology e)) :
    ¬e.IsOther := by
  induction roles generalizing taken with
  | nil => cases h
  | cons role roles ih =>
    cases hserved : role.isServed populated with
    | false => exact ih ((result_buildVlans_skip hserved).symm.trans h)
    | true =>
      rcases (buildVlans_serve_eq_error hserved).mp h with h | ⟨x, -, -, h⟩
      · exact fun hother => hother _ _ (allocateSubnet_eq_error.mp h).1
      · exact ih h

/-- A construction that ends with an error of another kind than those of its earlier steps reached
the assignment, and the assignment ended with it. -/
theorem exists_reachesAssignment {e : TopologyError} (hrouter : findRouter g ≠ .error e)
    (hother : e.IsOther) (h : (Topology.ofGraph g s).result = .error (.topology e)) :
    ∃ xs, g.ReachesAssignment s xs ∧
      (assignAddresses Digest.sha256 g s (placementsOf g) xs).result = .error e := by
  rcases Traced.result_bind_eq_error.mp h with h | ⟨⟨id, m⟩, hfind, h⟩
  · exact absurd (ofTopology_eq_error.mp h) hrouter
  rcases Traced.result_bind_eq_error.mp h with h | ⟨⟨trunk, bonded⟩, htrunk, h⟩
  · exact absurd h ofInput_ne_topology
  rcases Traced.result_bind_eq_error.mp h with h | ⟨built, hbuilt, h⟩
  · exact absurd hother (not_isOther_of_buildVlans h)
  rcases Traced.result_bind_eq_error.mp h with h | ⟨as, -, h⟩
  · obtain ⟨e', he', heq⟩ := mapError_eq_error.mp h
    cases heq
    exact ⟨_, ⟨id, m, trunk, bonded, built, ofTopology_eq_ok.mp hfind, ofInput_eq_ok.mp htrunk,
      hbuilt, rfl⟩, he'⟩
  · rcases Traced.result_bind_eq_error.mp h with h | ⟨-, -, h⟩ <;> cases h

/-- What is refused once the network reaches the assignment. -/
theorem assignAddresses_eq_error {hash : List UInt8 → List UInt8} {ps : List (MachineId × Role)}
    {e : TopologyError} (hmacs : checkDeclaredMacs g ps = .ok ())
    (he : (seats g ps xs).foldlM (claimExplicit s.policy) (initialClaims g s.policy xs) =
      .error e) : (assignAddresses hash g s ps xs).result = .error e :=
  Traced.result_bind_eq_error.mpr (Or.inr ⟨(), hmacs, Traced.result_bind_eq_error.mpr (Or.inl he)⟩)

end Reaching

/-! ## Claims of seats -/

/-- The claim of a seat on its declared address. -/
def Seat.declaredClaim? (y : Seat) : Option Claim :=
  y.iface.addresses.head?.map y.claim

/-- The field of a declared address in a description. -/
def Seat.addressField (y : Seat) : String :=
  s!"networkinterfaces.lan.{y.iface.name}.address"

section Refusals

variable (g : Graph) (policy : AllocationPolicy) (xs : List Subnet)

/-- What is claimed after the seats `ys`, latest first. -/
def Graph.claimsAfter (ys : List Seat) : List Claim :=
  (ys.filterMap Seat.declaredClaim?).reverse ++ initialClaims g policy xs

/-- An address that is taken after the seats `ys` : a gateway, the declared address of one of them,
or, under the network-wide policy, the address of an outer interface. -/
def Graph.IsTaken (ys : List Seat) (a : Address) : Prop :=
  (∃ x ∈ xs, x.gateway = a) ∨ (∃ z ∈ ys, z.iface.addresses.head? = some a) ∨
    policy = .networkWide ∧ ∃ m ∈ g.machines, ∃ i ∈ m.wan, a ∈ i.addresses

/-- A seat is refused after the seats `ys` : its declared address is no host of its subnet, or else
the address is claimed, and then the latest claim on it names the owner. -/
inductive Seat.Refused (ys : List Seat) (y : Seat) : TopologyError → Prop where
  | outside {a : Address} : y.iface.addresses.head? = some a →
      isHostOf y.subnet.net a = false →
      Refused ys y (.addressOutsideSubnet y.label y.addressField a.text y.subnet.net.text)
  | inUse {a : Address} {c : Claim} : y.iface.addresses.head? = some a →
      isHostOf y.subnet.net a = true →
      (g.claimsAfter policy xs ys).find? (fun c => c.address = a) = some c →
      Refused ys y (.addressInUse y.label y.addressField a.text c.owner)

/-- None of the seats is refused after the ones before it. -/
def Graph.Accepts (ys : List Seat) : Prop :=
  ∀ before y, before ++ [y] <+: ys → ∀ e, ¬y.Refused g policy xs before e

/-- The first of the seats that is refused is refused with the error `e`. -/
def Graph.Refuses (ys : List Seat) (e : TopologyError) : Prop :=
  ∃ before y, before ++ [y] <+: ys ∧ g.Accepts policy xs before ∧ y.Refused g policy xs before e

/-- Claims the declared addresses of seats, one after the other. -/
def Graph.claimDeclared (ys : List Seat) : Except TopologyError (List Claim) :=
  ys.foldlM (claimExplicit policy) (initialClaims g policy xs)

end Refusals

section Claims

variable {g : Graph} {policy : AllocationPolicy} {xs : List Subnet} {ys : List Seat} {y : Seat}
  {a : Address}

theorem claims_of_claimExplicit {claims claims' : List Claim}
    (h : claimExplicit policy claims y = .ok claims') :
    claims' = y.declaredClaim?.toList ++ claims := by
  unfold claimExplicit at h
  unfold Seat.declaredClaim?
  split at h
  · next ha =>
    cases h
    simp [ha]
  · next a ha =>
    dsimp only at h
    split at h
    · cases h
    · split at h <;> cases h
      simp [ha]

theorem claimsAfter_snoc :
    g.claimsAfter policy xs (ys ++ [y]) = y.declaredClaim?.toList ++ g.claimsAfter policy xs ys := by
  cases hy : y.declaredClaim? <;> simp [Graph.claimsAfter, hy]

theorem mem_initialClaims {c : Claim} : c ∈ initialClaims g policy xs ↔
    c ∈ gatewayClaims xs ∨ policy = .networkWide ∧ c ∈ wanClaims g := by
  cases policy <;> simp [initialClaims, or_comm]

theorem exists_mem_wanClaims : (∃ c ∈ wanClaims g, c.address = a) ↔
    ∃ m ∈ g.machines, ∃ i ∈ m.wan, a ∈ i.addresses := by
  constructor
  · rintro ⟨c, hc, rfl⟩
    simp only [wanClaims, List.mem_flatMap, List.mem_map] at hc
    obtain ⟨m, hm, i, hi, b, hb, rfl⟩ := hc
    exact ⟨m, hm, i, hi, hb⟩
  · rintro ⟨m, hm, i, hi, ha⟩
    exact mem_wanClaims hm hi ha

theorem isTaken_iff :
    g.IsTaken policy xs ys a ↔ ∃ c ∈ g.claimsAfter policy xs ys, c.address = a := by
  have hgateways : (∃ c ∈ gatewayClaims xs, c.address = a) ↔ ∃ x ∈ xs, x.gateway = a := by
    simp [gatewayClaims]
  have hdeclared : (∃ c ∈ ys.filterMap Seat.declaredClaim?, c.address = a) ↔
      ∃ z ∈ ys, z.iface.addresses.head? = some a := by
    simp only [List.mem_filterMap, Seat.declaredClaim?, Option.map_eq_some_iff]
    constructor
    · rintro ⟨_, ⟨z, hz, b, hb, rfl⟩, rfl⟩
      exact ⟨z, hz, hb⟩
    · rintro ⟨z, hz, ha⟩
      exact ⟨_, ⟨z, hz, a, ha, rfl⟩, rfl⟩
  rw [Graph.IsTaken, ← hgateways, ← hdeclared, ← exists_mem_wanClaims]
  simp only [Graph.claimsAfter, List.mem_append, List.mem_reverse, mem_initialClaims]
  grind

/-- A seat is refused for an address that is no host of its subnet or is taken. -/
theorem exists_refused_iff : (∃ e, y.Refused g policy xs ys e) ↔
    ∃ a, y.iface.addresses.head? = some a ∧
      (isHostOf y.subnet.net a = false ∨ g.IsTaken policy xs ys a) := by
  constructor
  · rintro ⟨_, ⟨ha, hhost⟩ | ⟨ha, -, hfind⟩⟩
    · exact ⟨_, ha, Or.inl hhost⟩
    · exact ⟨_, ha, Or.inr (isTaken_iff.mpr
        ⟨_, List.mem_of_find?_eq_some hfind, by simpa using List.find?_some hfind⟩)⟩
  · rintro ⟨a, ha, hbad⟩
    cases hhost : isHostOf y.subnet.net a with
    | false => exact ⟨_, .outside ha hhost⟩
    | true =>
      obtain ⟨c, hc, haddress⟩ := isTaken_iff.mp (hbad.resolve_left (by simp [hhost]))
      have hfound : ((g.claimsAfter policy xs ys).find? fun c => c.address = a).isSome = true :=
        List.find?_isSome.mpr ⟨c, hc, by simpa using haddress⟩
      obtain ⟨d, hd⟩ := Option.isSome_iff_exists.mp hfound
      exact ⟨_, .inUse ha hhost hd⟩

/-! ## Acceptance -/

theorem accepts_nil : g.Accepts policy xs [] := fun before y h => by
  simp at h

theorem accepts_snoc : g.Accepts policy xs (ys ++ [y]) ↔
    g.Accepts policy xs ys ∧ ∀ e, ¬y.Refused g policy xs ys e := by
  constructor
  · exact fun h => ⟨fun before z hz => h before z (hz.trans (List.prefix_append ys [y])),
      h ys y (List.prefix_refl _)⟩
  · rintro ⟨hys, hy⟩ before z hz
    rcases List.prefix_concat_iff.mp hz with heq | hz
    · obtain ⟨rfl, hlast⟩ := List.append_inj' heq rfl
      obtain rfl := List.singleton_inj.mp hlast
      exact hy
    · exact hys before z hz

/-- Seats are accepted, or there is a first one that is not. -/
theorem accepts_or_exists_refuses (ys : List Seat) :
    g.Accepts policy xs ys ∨ ∃ e, g.Refuses policy xs ys e := by
  induction ys using List.reverseRecOn with
  | nil => exact Or.inl accepts_nil
  | append_singleton ys y ih =>
    rcases ih with hys | ⟨e, before, z, hz, hrefused⟩
    · by_cases hy : ∃ e, y.Refused g policy xs ys e
      · obtain ⟨e, hy⟩ := hy
        exact Or.inr ⟨e, ys, y, List.prefix_refl _, hys, hy⟩
      · exact Or.inl (accepts_snoc.mpr ⟨hys, not_exists.mp hy⟩)
    · exact Or.inr ⟨e, before, z, hz.trans (List.prefix_append ys [y]), hrefused⟩

/-- A seat that was accepted declares no address but a host of its subnet. -/
theorem Graph.Accepts.isHostOf (h : g.Accepts policy xs ys) (hy : y ∈ ys)
    (ha : y.iface.addresses.head? = some a) : isHostOf y.subnet.net a = true := by
  obtain ⟨before, after, rfl⟩ := List.append_of_mem hy
  have hprefix : before ++ [y] <+: before ++ y :: after := ⟨after, by simp⟩
  by_contra hhost
  exact h before y hprefix _ (.outside ha (by simpa using hhost))

end Claims

/-! ## Claiming -/

section Claiming

variable {g : Graph} {s : Settings} {policy : AllocationPolicy} {wan : List Block}
  {roles : List Role} {xs : List Subnet} {ys : List Seat} {y : Seat} {a : Address}
variable (hs : s.Valid) (hall : Allocations s wan [] roles xs)
include hs hall

/-- What accepted seats claim lies in their subnets, and so do the gateways. -/
theorem isWithin_claimsAfter (hys : ∀ z ∈ ys, z.subnet ∈ xs) (hacc : g.Accepts policy xs ys)
    {c : Claim} (hc : c ∈ g.claimsAfter policy xs ys) :
    c.IsWithin xs ∨ policy = .networkWide := by
  simp only [Graph.claimsAfter, List.mem_append, List.mem_reverse, List.mem_filterMap,
    Seat.declaredClaim?, Option.map_eq_some_iff, mem_initialClaims] at hc
  rcases hc with ⟨z, hz, b, hb, rfl⟩ | hgateway | ⟨hpolicy, -⟩
  · exact Or.inl ⟨z.subnet, hys z hz, rfl, contains_of_isHostOf (hacc.isHostOf hz hb)⟩
  · obtain ⟨x, hx, rfl⟩ := List.mem_map.mp hgateway
    exact Or.inl ⟨x, hx, rfl, hall.contains_gateway hs hx⟩
  · exact Or.inr hpolicy

/-- The holder of an address in its subnet is the owner of the latest claim on it, whatever the
policy : claims in other subnets are on other addresses. -/
theorem holder?_claimsAfter (hys : ∀ z ∈ ys, z.subnet ∈ xs) (hacc : g.Accepts policy xs ys)
    {x : Subnet} (hx : x ∈ xs) (ha : x.net.contains a = true) :
    holder? policy (g.claimsAfter policy xs ys) x.role a =
      ((g.claimsAfter policy xs ys).find? fun c => c.address = a).map (·.owner) := by
  refine congrArg _ (List.find?_congr fun c hc => ?_)
  by_cases haddress : c.address = a
  · rcases isWithin_claimsAfter hs hall hys hacc hc with ⟨z, hz, hrole, hcontains⟩ | hpolicy
    · obtain rfl : z = x := hall.eq_of_contains hz hx hcontains (haddress ▸ ha)
      simp [hrole]
    · simp [hpolicy]
  · simp [haddress]

/-- A step of the claiming fails exactly for a seat that is refused. -/
theorem claimExplicit_eq_error (hys : ∀ z ∈ ys, z.subnet ∈ xs) (hacc : g.Accepts policy xs ys)
    (hy : y.subnet ∈ xs) {e : TopologyError} :
    claimExplicit policy (g.claimsAfter policy xs ys) y = .error e ↔
      y.Refused g policy xs ys e := by
  have hholder : ∀ {a}, isHostOf y.subnet.net a = true →
      holder? policy (g.claimsAfter policy xs ys) y.subnet.role a =
        ((g.claimsAfter policy xs ys).find? fun c => c.address = a).map (·.owner) :=
    fun hhost => holder?_claimsAfter hs hall hys hacc hy (contains_of_isHostOf hhost)
  unfold claimExplicit
  constructor
  · intro h
    split at h
    · cases h
    · next a ha =>
      dsimp only at h
      split at h
      · next hhost =>
        cases h
        exact .outside ha (by simpa using hhost)
      · next hhost =>
        have hhost : isHostOf y.subnet.net a = true := by simpa using hhost
        rw [hholder hhost] at h
        cases hfind : (g.claimsAfter policy xs ys).find? fun c => c.address = a with
        | none => simp [hfind] at h
        | some c =>
          rw [hfind] at h
          cases h
          exact .inUse ha hhost hfind
  · rintro (⟨ha, hhost⟩ | ⟨ha, hhost, hfind⟩)
    · simp only [ha, hhost, Bool.not_false, if_true]
      rfl
    · simp only [ha, hhost, hholder hhost, hfind, Option.map_some]
      rfl

/-- Accepted seats claim their declared addresses, each after the ones before it. -/
theorem claimDeclared_eq_ok (hys : ∀ z ∈ ys, z.subnet ∈ xs) (hacc : g.Accepts policy xs ys) :
    g.claimDeclared policy xs ys = .ok (g.claimsAfter policy xs ys) := by
  induction ys using List.reverseRecOn with
  | nil => rfl
  | append_singleton ys y ih =>
    obtain ⟨hacc, hy⟩ := accepts_snoc.mp hacc
    obtain ⟨hys, hsubnet⟩ := List.forall_mem_append.mp hys
    rw [Graph.claimDeclared, List.foldlM_append, ← Graph.claimDeclared, ih hys hacc]
    change claimExplicit policy (g.claimsAfter policy xs ys) y >>= pure = _
    rw [bind_pure, claimsAfter_snoc]
    cases hstep : claimExplicit policy (g.claimsAfter policy xs ys) y with
    | ok claims => rw [claims_of_claimExplicit hstep]
    | error e =>
      exact absurd ((claimExplicit_eq_error hs hall hys hacc (by simpa using hsubnet)).mp hstep)
        (hy e)

/-- The claiming fails with the error of the first seat that is refused. -/
theorem claimDeclared_eq_error (hys : ∀ z ∈ ys, z.subnet ∈ xs) {e : TopologyError} :
    g.claimDeclared policy xs ys = .error e ↔ g.Refuses policy xs ys e := by
  have hfails : ∀ {e}, g.Refuses policy xs ys e → g.claimDeclared policy xs ys = .error e := by
    rintro e ⟨before, y, ⟨after, rfl⟩, hacc, hy⟩
    obtain ⟨hbefore, hsubnet⟩ := List.forall_mem_append.mp (List.forall_mem_append.mp hys).1
    have hstep := (claimExplicit_eq_error hs hall hbefore hacc (by simpa using hsubnet)).mpr hy
    rw [Graph.claimDeclared, List.append_assoc, List.foldlM_append, ← Graph.claimDeclared,
      claimDeclared_eq_ok hs hall hbefore hacc]
    exact bind_eq_error.mpr (Or.inr ⟨_, rfl, bind_eq_error.mpr (Or.inl hstep)⟩)
  refine ⟨fun h => ?_, hfails⟩
  rcases accepts_or_exists_refuses ys with hacc | ⟨e', he'⟩
  · cases (claimDeclared_eq_ok hs hall hys hacc).symm.trans h
  · cases (hfails he').symm.trans h
    exact he'

/-- Whoever got past the claiming was accepted. -/
theorem accepts_of_claimDeclared (hys : ∀ z ∈ ys, z.subnet ∈ xs) {claims : List Claim}
    (h : g.claimDeclared policy xs ys = .ok claims) :
    g.Accepts policy xs ys ∧ claims = g.claimsAfter policy xs ys := by
  rcases accepts_or_exists_refuses ys with hacc | ⟨e, he⟩
  · exact ⟨hacc, Except.ok.inj (h.symm.trans (claimDeclared_eq_ok hs hall hys hacc))⟩
  · cases h.symm.trans ((claimDeclared_eq_error hs hall hys).mpr he)

end Claiming

/-! ## Networks -/

/-- Every address of an inner interface of a described network is declared by a seat. -/
theorem exists_seat_of_declared {name : String} {d : Description} {s : Settings} {g : Graph}
    (hg : Graph.ofDescription name d s = .ok g) {xs : List Subnet}
    (hall : Allocations s (wanNetworks g) [] g.servedRoles xs) {m : Machine}
    (hm : m ∈ g.machines) {i : Interface} (hi : i ∈ m.lan) {a : Address} (ha : a ∈ i.addresses) :
    ∃ y ∈ seats g (placementsOf g) xs, y.label = m.label ∧ y.iface = i ∧
      y.iface.addresses.head? = some a := by
  have hrouter : m.isRouter = false := by
    by_contra hrouter
    rw [Graph.addresses_of_router hg hm (by simpa using hrouter) i hi] at ha
    cases ha
  have hdeclared := Graph.isDeclared hg hm
  obtain ⟨r, hr, hrole, hguest⟩ := hdeclared.placed hrouter
  obtain ⟨id, hid⟩ := List.mem_iff_getElem?.mp hm
  have hplace : (id, r) ∈ placementsOf g :=
    mem_placementsOf.mpr ⟨m, hid, List.ne_nil_of_mem hi, hrole⟩
  have hserved := mem_servedRoles hplace hr hguest
  rw [← hall.map_role] at hserved
  obtain ⟨x, hx, rfl⟩ := List.mem_map.mp hserved
  have hfirst : i.addresses.head? = some a := by
    -- The only address of an interface is its first.
    obtain ⟨b, hb⟩ := List.length_eq_one_iff.mp
      (Nat.le_antisymm (hdeclared.lan_addresses i hi) (List.length_pos_of_mem ha))
    rw [hb, List.mem_singleton] at ha
    rw [hb, ha, List.head?_cons]
  exact ⟨⟨x, id, m.label, i⟩, mem_seats.mpr ⟨hx, hplace, m, hid, rfl, hi⟩, rfl, rfl, hfirst⟩

/-- Which declared addresses are refused in a network that comes as far as the assignment : the
claiming fails exactly if some seat declares an address that is no host of its subnet, or that is a
gateway, declared by a seat before it, or under the network-wide policy the address of an outer
interface; it fails with the error of the first such seat; and unless a hardware address is missing
the construction ends with this error. In a described network no declared address is passed
over. -/
theorem declared_addresses_refused (g : Graph) (s : Settings) (hs : s.Valid) (xs : List Subnet)
    (h : g.ReachesAssignment s xs) :
    ((∃ e, g.claimDeclared s.policy xs (seats g (placementsOf g) xs) = .error e) ↔
      ∃ before y a, before ++ [y] <+: seats g (placementsOf g) xs ∧
        y.iface.addresses.head? = some a ∧
        (isHostOf y.subnet.net a = false ∨ g.IsTaken s.policy xs before a)) ∧
    (∀ e, g.claimDeclared s.policy xs (seats g (placementsOf g) xs) = .error e ↔
      g.Refuses s.policy xs (seats g (placementsOf g) xs) e) ∧
    (checkDeclaredMacs g (placementsOf g) = .ok () → ∀ e,
      g.Refuses s.policy xs (seats g (placementsOf g) xs) e →
        (Topology.ofGraph g s).result = .error (.topology e)) ∧
    ∀ name d, Graph.ofDescription name d s = .ok g → ∀ m ∈ g.machines, ∀ i ∈ m.lan,
      ∀ a ∈ i.addresses, ∃ y ∈ seats g (placementsOf g) xs, y.label = m.label ∧ y.iface = i ∧
        y.iface.addresses.head? = some a := by
  have hseats : ∀ y ∈ seats g (placementsOf g) xs, y.subnet ∈ xs := fun y hy =>
    (mem_seats.mp hy).1
  have hfails : ∀ e, g.claimDeclared s.policy xs (seats g (placementsOf g) xs) = .error e ↔
      g.Refuses s.policy xs (seats g (placementsOf g) xs) e := fun e =>
    claimDeclared_eq_error hs h.allocations hseats
  refine ⟨?_, hfails, fun hmacs e he => h.ofGraph_eq_error
      (assignAddresses_eq_error hmacs ((hfails e).mpr he)),
    fun name d hg m hm i hi a ha => exists_seat_of_declared hg h.allocations hm hi ha⟩
  simp only [hfails]
  constructor
  · rintro ⟨e, before, y, hy, -, hrefused⟩
    obtain ⟨a, ha, hbad⟩ := exists_refused_iff.mp ⟨e, hrefused⟩
    exact ⟨before, y, a, hy, ha, hbad⟩
  · rintro ⟨before, y, a, hy, ha, hbad⟩
    obtain ⟨e, hrefused⟩ := exists_refused_iff.mpr ⟨a, ha, hbad⟩
    exact (accepts_or_exists_refuses _).resolve_left fun hacc => hacc before y hy e hrefused

/-- Two servers with the same address. -/
def sharingGraph : Graph where
  name := "lab"
  domain := "lan"
  resolvers := []
  adblocking := false
  autoguest := false
  autogenpasswds := false
  machines := [
    { label := "router", roles := [.router], fqdn := "router.lan" },
    { label := "a", roles := [.server, .dedicated], fqdn := "a.lan",
      lan := [{ Interface.new "eth0" .static .lan with
        mac := some ⟨2, 0, 0, 0, 0, 1⟩, addresses := [.ofOctets 10 10 0 5] }] },
    { label := "b", roles := [.server, .dedicated], fqdn := "b.lan",
      lan := [{ Interface.new "eth0" .static .lan with
        mac := some ⟨2, 0, 0, 0, 0, 2⟩, addresses := [.ofOctets 10 10 0 5] }] }]

/-- The subnet of the two servers. -/
def sharedSubnet : Subnet where
  role := .server
  net := Block.ofAddress (.ofOctets 10 10 0 0) 24 (by decide)
  vlanId := 10
  iface := "servers"
  gateway := .ofOctets 10 10 0 1

/-- The second server is refused, and the first one named as the holder. -/
theorem declared_addresses_refused_sharing :
    Settings.default.Valid ∧ sharingGraph.ReachesAssignment .default [sharedSubnet] ∧
      checkDeclaredMacs sharingGraph (placementsOf sharingGraph) = .ok () ∧
      (Topology.ofGraph sharingGraph .default).result = .error (.topology
        (.addressInUse "b" "networkinterfaces.lan.eth0.address" "10.10.0.5" "a eth0")) := by
  have hvalid : Settings.default.Valid := by decide
  have hbuilt : (buildVlans sharingGraph .default "router" "lan0"
      ((placementsOf sharingGraph).map (·.2)) [] (vlanRoles false)).result.map (·.map (·.1)) =
        .ok [sharedSubnet] := by decide +kernel
  obtain ⟨built, hbuilt, hsubnets⟩ := map_eq_ok.mp hbuilt
  have hreach : sharingGraph.ReachesAssignment .default [sharedSubnet] :=
    ⟨0, { label := "router", roles := [.router], fqdn := "router.lan" },
      Interface.new "lan0" .dummy .lan, [], built, by decide +kernel, by decide +kernel, hbuilt,
      hsubnets.symm⟩
  have hmacs : checkDeclaredMacs sharingGraph (placementsOf sharingGraph) = .ok () := by
    decide +kernel
  have hclaim : sharingGraph.claimDeclared Settings.default.policy [sharedSubnet]
      (seats sharingGraph (placementsOf sharingGraph) [sharedSubnet]) = .error
        (.addressInUse "b" "networkinterfaces.lan.eth0.address" "10.10.0.5" "a eth0") := by
    decide +kernel
  obtain ⟨-, hfails, hends, -⟩ :=
    declared_addresses_refused sharingGraph .default hvalid [sharedSubnet] hreach
  exact ⟨hvalid, hreach, hmacs, hends hmacs _ ((hfails _).mp hclaim)⟩

end NetworkCompiler
