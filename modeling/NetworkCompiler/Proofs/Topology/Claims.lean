import NetworkCompiler.Proofs.Ipv4.Blocks
import NetworkCompiler.Proofs.Results
import NetworkCompiler.Topology.Addresses

/-!
# Claimed addresses

Whatever the policy, nobody holds an address that another claim in the same subnet holds. So the
pairs of role and address that are claimed (`claimKeys`) are the invariant of the assignment :
claiming declared addresses keeps them distinct (`claimExplicit_fold`), and so does serving the
other interfaces (`settle_eq_ok`), each of which gets a host behind the gateway that is not
claimed. All that is done for one interface is said once (`Seat.Serves`), and what is true of a
whole run is shown by taking it apart into such steps (`settle_cons_eq_ok`).

Under the network-wide policy no address is declared or assigned that was claimed before, whatever
the claim is for (`claimExplicit_apart`, `settle_apart`).
-/

namespace NetworkCompiler

open Ipv4 (Address Block)

/-! ## Keys -/

/-- The subnet and the address of a claim in a subnet. -/
def Claim.key? (c : Claim) : Option (Role × Address) :=
  c.role.map fun r => (r, c.address)

/-- The claimed addresses, each with its subnet. -/
def claimKeys (claims : List Claim) : List (Role × Address) :=
  claims.filterMap Claim.key?

/-- The subnet and the declared address of a seat. -/
def Seat.declaredKey? (x : Seat) : Option (Role × Address) :=
  x.iface.addresses.head?.map fun a => (x.subnet.role, a)

/-- The subnet and the address of an assignment. -/
def Assignment.key (a : Assignment) : Role × Address :=
  (a.role, a.address)

/-- The subnet and the address of a gateway. -/
def Subnet.gatewayKey (x : Subnet) : Role × Address :=
  (x.role, x.gateway)

theorem claimKeys_claim (x : Seat) (a : Address) (claims : List Claim) :
    claimKeys (x.claim a :: claims) = (x.subnet.role, a) :: claimKeys claims :=
  rfl

/-- An address that nobody holds in a subnet is not claimed there. -/
theorem notMem_claimKeys {policy : AllocationPolicy} {claims : List Claim} {r : Role}
    {a : Address} (h : holder? policy claims r a = none) : (r, a) ∉ claimKeys claims := by
  intro hmem
  obtain ⟨c, hc, hkey⟩ := List.mem_filterMap.mp hmem
  obtain ⟨q, hq, heq⟩ := Option.map_eq_some_iff.mp hkey
  cases heq
  have hnone := List.find?_eq_none.mp (Option.map_eq_none_iff.mp h) c hc
  simp [hq] at hnone

/-- Before any machine inside is looked at, the gateways are claimed and nothing else inside. -/
theorem claimKeys_initialClaims (g : Graph) (policy : AllocationPolicy) (xs : List Subnet) :
    claimKeys (initialClaims g policy xs) = (xs.map Subnet.gatewayKey).reverse := by
  have hgateways : claimKeys (gatewayClaims xs) = xs.map Subnet.gatewayKey := by
    rw [claimKeys, gatewayClaims, List.filterMap_map, ← List.filterMap_eq_map]
    rfl
  have hwan : claimKeys (wanClaims g) = [] := by
    refine List.filterMap_eq_nil_iff.mpr fun c hc => ?_
    simp only [wanClaims, List.mem_flatMap, List.mem_map] at hc
    obtain ⟨_, _, _, _, _, _, rfl⟩ := hc
    rfl
  cases policy with
  | networkWide =>
    rw [initialClaims, claimKeys, List.filterMap_reverse, List.filterMap_append]
    rw [← claimKeys, ← claimKeys, hwan, hgateways, List.nil_append]
  | perSubnet =>
    rw [initialClaims, claimKeys, List.filterMap_reverse, ← claimKeys, hgateways]

/-! ## Declared addresses -/

theorem contains_of_isHostOf {net : Block} {a : Address} (h : isHostOf net a = true) :
    net.contains a = true := by
  simp only [isHostOf, Bool.and_eq_true] at h
  exact h.1.1

theorem claimExplicit_eq_ok {policy : AllocationPolicy} {claims claims' : List Claim} {x : Seat}
    (h : claimExplicit policy claims x = .ok claims') :
    claimKeys claims' = x.declaredKey?.toList ++ claimKeys claims ∧
      (∀ k ∈ x.declaredKey?, k ∉ claimKeys claims) ∧
      ∀ a ∈ x.iface.addresses.head?, isHostOf x.subnet.net a = true := by
  unfold claimExplicit at h
  unfold Seat.declaredKey?
  split at h
  · next hhead =>
    cases h
    simp [hhead]
  · next a hhead =>
    dsimp only at h
    split at h
    · cases h
    · next hhost =>
      split at h
      · cases h
      · next hholder =>
        cases h
        simpa [hhead, claimKeys_claim] using ⟨notMem_claimKeys hholder, by simpa using hhost⟩

/-- Claiming the declared addresses of seats claims exactly these, each of them once. -/
theorem claimExplicit_fold {policy : AllocationPolicy} {xs : List Seat}
    {claims claims' : List Claim} (h : xs.foldlM (claimExplicit policy) claims = .ok claims') :
    claimKeys claims' = (xs.filterMap Seat.declaredKey?).reverse ++ claimKeys claims ∧
      ((claimKeys claims).Nodup → (claimKeys claims').Nodup) ∧
      ∀ x ∈ xs, ∀ a ∈ x.iface.addresses.head?, isHostOf x.subnet.net a = true := by
  induction xs generalizing claims with
  | nil =>
    cases h
    simp
  | cons x xs ih =>
    rw [List.foldlM_cons] at h
    obtain ⟨claims₁, h₁, h⟩ := bind_eq_ok.mp h
    obtain ⟨hkeys₁, hfresh, hhost₁⟩ := claimExplicit_eq_ok h₁
    obtain ⟨hkeys, hnd, hhost⟩ := ih h
    refine ⟨?_, fun hclaims => hnd ?_, List.forall_mem_cons.mpr ⟨hhost₁, hhost⟩⟩
    · rw [hkeys, hkeys₁]
      cases hk : x.declaredKey? <;> simp [hk]
    · rw [hkeys₁]
      cases hk : x.declaredKey? with
      | none => simpa [hk] using hclaims
      | some k => exact List.nodup_cons.mpr ⟨hfresh k hk, hclaims⟩

/-! ## Free hosts -/

theorem firstAddress?_eq_some {free : Address → Bool} {count value : Nat} {a : Address}
    (h : firstAddress? free count value = some a) :
    free a = true ∧ ∃ k < count, a = Address.ofNat (value + k) := by
  induction count generalizing value with
  | zero => cases h
  | succ count ih =>
    rw [firstAddress?] at h
    split at h
    · next hfree =>
      cases h
      exact ⟨hfree, 0, by omega, rfl⟩
    · obtain ⟨hfree, k, hk, ha⟩ := ih h
      exact ⟨hfree, k + 1, by omega, by rw [ha, Nat.add_assoc, Nat.add_comm 1 k]⟩

/-- A free host lies behind the gateway and before the broadcast address, and nobody holds it. -/
theorem freeHost?_eq_some {policy : AllocationPolicy} {claims : List Claim} {x : Subnet}
    {a : Address} (h : freeHost? policy claims x = some a) :
    holder? policy claims x.role a = none ∧ x.gateway.value < a.value ∧
      a.value < x.net.broadcast.value := by
  obtain ⟨hfree, k, hk, rfl⟩ := firstAddress?_eq_some h
  have hlast := x.net.broadcast.value_lt
  rw [Block.hostCountAfter] at hk
  have hvalue : (Address.ofNat (x.gateway.value + 1 + k)).value = x.gateway.value + 1 + k :=
    Nat.mod_eq_of_lt (by omega)
  exact ⟨by simpa using hfree, by omega, by omega⟩

/-! ## Serving seats -/

/-- What a seat gets : an assignment of its own, with the declared address, or else with a host
behind the gateway. -/
structure Seat.Gets (x : Seat) (a : Assignment) : Prop where
  machine_eq : a.machine = x.machine
  iface_eq : a.iface = x.iface.name
  role_eq : a.role = x.subnet.role
  explicit_eq : a.explicit = x.iface.addresses.head?.isSome
  declared : ∀ b ∈ x.iface.addresses.head?, a.address = b
  served : x.iface.addresses.head? = none →
    x.subnet.gateway.value < a.address.value ∧ a.address.value < x.subnet.net.broadcast.value

section Settle

variable {policy : AllocationPolicy} {candidates : String → Nat → Mac} {pool pool' : Pool}
  {x : Seat} {xs : List Seat} {a : Assignment} {as : List Assignment}

theorem settleMac_eq_ok {mac : Mac} {generated : Bool}
    (h : (settleMac candidates pool x).result = .ok (mac, generated, pool')) :
    pool'.claims = pool.claims ∧
      (generated = false ∧ x.iface.mac = some mac ∧ pool'.macs = pool.macs ∨
        generated = true ∧ x.iface.mac = none ∧ mac = freshMac candidates x.label pool.macs ∧
          pool'.macs = mac :: pool.macs) := by
  unfold settleMac at h
  split at h
  · next declared hdeclared =>
    cases h
    exact ⟨rfl, Or.inl ⟨rfl, hdeclared, rfl⟩⟩
  · next hnone =>
    cases h
    exact ⟨rfl, Or.inr ⟨rfl, hnone, rfl, rfl⟩⟩

theorem settleAddress_eq_ok {b : Address} {explicit : Bool}
    (h : settleAddress policy pool x = .ok (b, explicit, pool')) :
    pool'.macs = pool.macs ∧
      (explicit = true ∧ x.iface.addresses.head? = some b ∧ pool'.claims = pool.claims ∨
        explicit = false ∧ x.iface.addresses.head? = none ∧
          freeHost? policy pool.claims x.subnet = some b ∧
          pool'.claims = x.claim b :: pool.claims) := by
  unfold settleAddress at h
  split at h
  · next b hb =>
    cases h
    exact ⟨rfl, Or.inl ⟨rfl, hb, rfl⟩⟩
  · next hb =>
    split at h
    · next b hfree =>
      cases h
      exact ⟨rfl, Or.inr ⟨rfl, hb, hfree, rfl⟩⟩
    · cases h

/-- A seat is served : it gets an assignment, and what was not declared is claimed and in use from
then on. -/
structure Seat.Serves (policy : AllocationPolicy) (candidates : String → Nat → Mac) (x : Seat)
    (pool : Pool) (a : Assignment) (pool' : Pool) : Prop where
  machine_eq : a.machine = x.machine
  iface_eq : a.iface = x.iface.name
  role_eq : a.role = x.subnet.role
  address : a.explicit = true ∧ x.iface.addresses.head? = some a.address ∧
      pool'.claims = pool.claims ∨
    a.explicit = false ∧ x.iface.addresses.head? = none ∧
      freeHost? policy pool.claims x.subnet = some a.address ∧
      pool'.claims = x.claim a.address :: pool.claims
  mac : a.generatedMac = false ∧ x.iface.mac = some a.mac ∧ pool'.macs = pool.macs ∨
    a.generatedMac = true ∧ x.iface.mac = none ∧
      a.mac = freshMac candidates x.label pool.macs ∧ pool'.macs = a.mac :: pool.macs

/-- Seats are served one after the other. -/
theorem settle_cons_eq_ok (h : (settle policy candidates pool (x :: xs)).result = .ok as) :
    ∃ a rest pool', as = a :: rest ∧ x.Serves policy candidates pool a pool' ∧
      (settle policy candidates pool' xs).result = .ok rest := by
  rw [settle] at h
  obtain ⟨⟨mac, generated, pool₁⟩, hmac, h⟩ := Traced.result_bind_eq_ok.mp h
  obtain ⟨⟨address, explicit, pool₂⟩, haddress, h⟩ := Traced.result_bind_eq_ok.mp h
  obtain ⟨-, -, h⟩ := Traced.result_bind_eq_ok.mp h
  obtain ⟨rest, hrest, h⟩ := Traced.result_bind_eq_ok.mp h
  cases h
  obtain ⟨hclaims, hmac⟩ := settleMac_eq_ok hmac
  obtain ⟨hmacs, haddress⟩ := settleAddress_eq_ok haddress
  rw [hclaims] at haddress
  rw [← hmacs] at hmac
  exact ⟨_, rest, pool₂, rfl, ⟨rfl, rfl, rfl, haddress, hmac⟩, hrest⟩

theorem Seat.Serves.gets (h : x.Serves policy candidates pool a pool') : x.Gets a := by
  obtain ⟨hmachine, hiface, hrole, haddress, -⟩ := h
  rcases haddress with ⟨hexplicit, hhead, -⟩ | ⟨hexplicit, hhead, hfree, -⟩
  · exact ⟨hmachine, hiface, hrole, by simp [hexplicit, hhead], by simp [hhead], by simp [hhead]⟩
  · obtain ⟨-, hbounds⟩ := freeHost?_eq_some hfree
    exact ⟨hmachine, hiface, hrole, by simp [hexplicit, hhead], by simp [hhead], fun _ => hbounds⟩

/-- The addresses that were not declared. -/
def servedKeys (as : List Assignment) : List (Role × Address) :=
  (as.filter fun a => !a.explicit).map Assignment.key

/-- Every seat gets its assignment, and the addresses that were not declared are distinct and new
in their subnets. -/
theorem settle_eq_ok (h : (settle policy candidates pool xs).result = .ok as) :
    List.Forall₂ Seat.Gets xs as ∧ (servedKeys as).Nodup ∧
      ∀ k ∈ servedKeys as, k ∉ claimKeys pool.claims := by
  induction xs generalizing pool as with
  | nil =>
    cases h
    exact ⟨.nil, List.nodup_nil, by simp [servedKeys]⟩
  | cons x xs ih =>
    obtain ⟨a, rest, pool', rfl, hserves, hrest⟩ := settle_cons_eq_ok h
    obtain ⟨hgets, hnd, hnew⟩ := ih hrest
    refine ⟨.cons hserves.gets hgets, ?_⟩
    rcases hserves.address with ⟨hexplicit, -, hclaims⟩ | ⟨hexplicit, -, hfree, hclaims⟩
    · have hkeys : servedKeys (a :: rest) = servedKeys rest := by simp [servedKeys, hexplicit]
      rw [hkeys]
      exact ⟨hnd, hclaims ▸ hnew⟩
    · have hkeys : servedKeys (a :: rest) = (x.subnet.role, a.address) :: servedKeys rest := by
        simp [servedKeys, hexplicit, Assignment.key, hserves.role_eq]
      rw [hclaims, claimKeys_claim] at hnew
      simp only [List.mem_cons, not_or] at hnew
      rw [hkeys]
      exact ⟨List.nodup_cons.mpr ⟨fun hmem => (hnew _ hmem).1 rfl, hnd⟩,
        List.forall_mem_cons.mpr ⟨notMem_claimKeys (freeHost?_eq_some hfree).1,
          fun k hk => (hnew k hk).2⟩⟩

end Settle

/-! ## Claims for the whole network -/

theorem holder?_networkWide {claims : List Claim} {r : Role} {a : Address} :
    holder? .networkWide claims r a = none ↔ ∀ c ∈ claims, c.address ≠ a := by
  simp [holder?]

/-- A declared address was not claimed, and claims are never given up. -/
theorem claimExplicit_apart {claims claims' : List Claim} {x : Seat}
    (h : claimExplicit .networkWide claims x = .ok claims') :
    claims ⊆ claims' ∧ ∀ a ∈ x.iface.addresses.head?, ∀ c ∈ claims, c.address ≠ a := by
  unfold claimExplicit at h
  split at h
  · next hhead =>
    cases h
    simp [hhead]
  · next a hhead =>
    dsimp only at h
    split at h
    · cases h
    · split at h
      · cases h
      · next hholder =>
        cases h
        simpa [hhead] using holder?_networkWide.mp hholder

theorem claimExplicit_fold_apart {xs : List Seat} {claims claims' : List Claim}
    (h : xs.foldlM (claimExplicit .networkWide) claims = .ok claims') :
    claims ⊆ claims' ∧
      ∀ x ∈ xs, ∀ a ∈ x.iface.addresses.head?, ∀ c ∈ claims, c.address ≠ a := by
  induction xs generalizing claims with
  | nil =>
    cases h
    simp
  | cons x xs ih =>
    rw [List.foldlM_cons] at h
    obtain ⟨claims₁, h₁, h⟩ := bind_eq_ok.mp h
    obtain ⟨hsub₁, hx⟩ := claimExplicit_apart h₁
    obtain ⟨hsub, hxs⟩ := ih h
    exact ⟨List.Subset.trans hsub₁ hsub, List.forall_mem_cons.mpr
      ⟨hx, fun y hy a ha c hc => hxs y hy a ha c (hsub₁ hc)⟩⟩

/-- An address that was not declared was not claimed when it was assigned. -/
theorem settle_apart {candidates : String → Nat → Mac} {pool : Pool} {xs : List Seat}
    {as : List Assignment} (h : (settle .networkWide candidates pool xs).result = .ok as) :
    ∀ a ∈ as, a.explicit = false → ∀ c ∈ pool.claims, c.address ≠ a.address := by
  induction xs generalizing pool as with
  | nil =>
    cases h
    simp
  | cons x xs ih =>
    obtain ⟨a, rest, pool', rfl, hserves, hrest⟩ := settle_cons_eq_ok h
    rcases hserves.address with ⟨hexplicit, -, hclaims⟩ | ⟨hexplicit, -, hfree, hclaims⟩
    · exact List.forall_mem_cons.mpr ⟨by simp [hexplicit], hclaims ▸ ih hrest⟩
    · have hnew := holder?_networkWide.mp (freeHost?_eq_some hfree).1
      refine List.forall_mem_cons.mpr ⟨fun _ => hnew, fun b hb hb' c hc => ?_⟩
      exact ih hrest b hb hb' c (hclaims ▸ List.mem_cons_of_mem _ hc)

theorem mem_wanClaims {g : Graph} {m : Machine} {i : Interface} {a : Address}
    (hm : m ∈ g.machines) (hi : i ∈ m.wan) (ha : a ∈ i.addresses) :
    ∃ c ∈ wanClaims g, c.address = a :=
  ⟨_, List.mem_flatMap.mpr ⟨m, hm, List.mem_flatMap.mpr ⟨i, hi, List.mem_map_of_mem ha⟩⟩, rfl⟩

end NetworkCompiler
