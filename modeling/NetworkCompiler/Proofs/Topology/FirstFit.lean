import NetworkCompiler.Proofs.Topology.DeclaredAddresses

/-!
# First fit

Addresses that nobody declared are the first that are left. `Graph.Holds` says who may hold an
address while the seats are served : a seat that declares it, an outer interface, or a seat that
was served before. These are the claims of the run (`Graph.Records`), so every seat gets what fits
it (`Graph.Records.serves`), and the run ends exactly at a seat for which nothing is left
(`settle_eq_ok_firstFit`, `exists_of_settle_eq_error`). Only one address fits a seat
(`Seat.Fits.unique`), so there is one such seat at most. `automatic_addresses_first_fit` says this
of whole networks.
-/

namespace NetworkCompiler

open Ipv4 (Address Block)

/-! ## Free hosts -/

/-- A host behind the gateway. -/
def Subnet.Offers (x : Subnet) (a : Address) : Prop :=
  x.gateway.value < a.value ∧ a.value < x.net.broadcast.value

theorem firstAddress?_first {free : Address → Bool} {count value : Nat} {a : Address}
    (h : firstAddress? free count value = some a) :
    ∃ k, a = Address.ofNat (value + k) ∧ ∀ j < k, free (Address.ofNat (value + j)) = false := by
  induction count generalizing value with
  | zero => cases h
  | succ count ih =>
    rw [firstAddress?] at h
    split at h
    · cases h
      exact ⟨0, rfl, by simp⟩
    · next hfree =>
      obtain ⟨k, rfl, hfirst⟩ := ih h
      refine ⟨k + 1, by rw [Nat.add_assoc, Nat.add_comm 1 k], fun j hj => ?_⟩
      cases j with
      | zero => simpa using hfree
      | succ j =>
        have hnext := hfirst j (by omega)
        rwa [Nat.add_assoc, Nat.add_comm 1 j] at hnext

theorem firstAddress?_none {free : Address → Bool} {count value : Nat}
    (h : firstAddress? free count value = none) :
    ∀ k < count, free (Address.ofNat (value + k)) = false := by
  induction count generalizing value with
  | zero => simp
  | succ count ih =>
    rw [firstAddress?] at h
    split at h
    · cases h
    · next hfree =>
      intro k hk
      cases k with
      | zero => simpa using hfree
      | succ k =>
        have hnext := ih h k (by omega)
        rwa [Nat.add_assoc, Nat.add_comm 1 k] at hnext

theorem ofNat_value_of_lt {x : Subnet} {b : Address} (h : x.gateway.value < b.value) :
    Address.ofNat (x.gateway.value + 1 + (b.value - (x.gateway.value + 1))) = b := by
  have hvalue : x.gateway.value + 1 + (b.value - (x.gateway.value + 1)) = b.value := by omega
  obtain ⟨v, hv⟩ := b
  rw [hvalue]
  simp only [Address.ofNat, Nat.mod_eq_of_lt hv]

section Free

variable {policy : AllocationPolicy} {claims : List Claim} {x : Subnet}

/-- All hosts before a free one are held. -/
theorem freeHost?_first {a b : Address} (h : freeHost? policy claims x = some a)
    (hlo : x.gateway.value < b.value) (hhi : b.value < a.value) :
    (holder? policy claims x.role b).isSome = true := by
  obtain ⟨k, rfl, hfirst⟩ := firstAddress?_first h
  have hle : (Address.ofNat (x.gateway.value + 1 + k)).value ≤ x.gateway.value + 1 + k :=
    Nat.mod_le _ _
  have hheld := hfirst (b.value - (x.gateway.value + 1)) (by omega)
  rw [ofNat_value_of_lt hlo] at hheld
  simpa using hheld

/-- No host is free only if all of them are held. -/
theorem freeHost?_none {b : Address} (h : freeHost? policy claims x = none) (hb : x.Offers b) :
    (holder? policy claims x.role b).isSome = true := by
  obtain ⟨hlo, hhi⟩ := hb
  have hheld := firstAddress?_none h (b.value - (x.gateway.value + 1)) (by
    rw [Block.hostCountAfter]
    omega)
  rw [ofNat_value_of_lt hlo] at hheld
  simpa using hheld

end Free

/-! ## Who holds an address -/

section Holding

variable (g : Graph) (policy : AllocationPolicy) (xs : List Subnet)

/-- An address of the subnet of `role` is held once the seats with the addresses `served` were
served : by a seat that declares it, in the same subnet unless the policy is network-wide, under
the network-wide policy by an outer interface, or by one of the seats that were served. -/
inductive Graph.Holds (served : List Address) (role : Role) (a : Address) : Prop where
  | declared {y : Seat} : y ∈ seats g (placementsOf g) xs → y.iface.addresses.head? = some a →
      policy = .networkWide ∨ y.subnet.role = role → Holds served role a
  | outer {m : Machine} {i : Interface} : policy = .networkWide → m ∈ g.machines → i ∈ m.wan →
      a ∈ i.addresses → Holds served role a
  | served : a ∈ served → Holds served role a

/-- An address fits a seat once the addresses `served` were given : it is the declared one, or else
the first host behind the gateway that is not held. -/
def Seat.Fits (served : List Address) (y : Seat) (a : Address) : Prop :=
  y.iface.addresses.head? = some a ∨ y.iface.addresses.head? = none ∧ y.subnet.Offers a ∧
    ¬g.Holds policy xs served y.subnet.role a ∧
    ∀ b, y.subnet.gateway.value < b.value → b.value < a.value →
      g.Holds policy xs served y.subnet.role b

/-- No host behind the gateway is left for a seat without a declared address. -/
def Seat.IsStuck (served : List Address) (y : Seat) : Prop :=
  y.iface.addresses.head? = none ∧
    ∀ a, y.subnet.Offers a → g.Holds policy xs served y.subnet.role a

/-- The seats get addresses that fit them, one after the other. -/
inductive Graph.FirstFit : List Address → List Seat → List Address → Prop where
  | nil (served : List Address) : FirstFit served [] []
  | cons {served : List Address} {y : Seat} {a : Address} {ys : List Seat} {as : List Address} :
      y.Fits g policy xs served a → FirstFit (served ++ [a]) ys as →
      FirstFit served (y :: ys) (a :: as)

/-- The claims hold what is held, as far as seats may get it. -/
def Graph.Records (claims : List Claim) (served : List Address) : Prop :=
  ∀ x ∈ xs, ∀ a, x.Offers a →
    ((holder? policy claims x.role a).isSome = true ↔ g.Holds policy xs served x.role a)

end Holding

section Fitting

variable {g : Graph} {policy : AllocationPolicy} {xs : List Subnet} {served : List Address}
  {y : Seat} {a b : Address} {r : Role}

theorem holds_snoc :
    g.Holds policy xs (served ++ [b]) r a ↔ g.Holds policy xs served r a ∨ a = b := by
  constructor
  · rintro (⟨hy, ha, hscope⟩ | ⟨hpolicy, hm, hi, ha⟩ | ha)
    · exact Or.inl (.declared hy ha hscope)
    · exact Or.inl (.outer hpolicy hm hi ha)
    · exact (List.mem_append.mp ha).imp .served List.mem_singleton.mp
  · rintro ((⟨hy, ha, hscope⟩ | ⟨hpolicy, hm, hi, ha⟩ | ha) | rfl)
    · exact .declared hy ha hscope
    · exact .outer hpolicy hm hi ha
    · exact .served (List.mem_append_left _ ha)
    · exact .served (List.mem_append_right _ (List.mem_singleton_self _))

/-- At most one address fits. -/
theorem Seat.Fits.unique (ha : y.Fits g policy xs served a) (hb : y.Fits g policy xs served b) :
    a = b := by
  rcases ha with ha | ⟨ha, ⟨halo, -⟩, hafree, hafirst⟩
  · rcases hb with hb | ⟨hb, -⟩
    · exact Option.some.inj (ha.symm.trans hb)
    · cases ha.symm.trans hb
  · rcases hb with hb | ⟨-, ⟨hblo, -⟩, hbfree, hbfirst⟩
    · cases ha.symm.trans hb
    · have hle : a.value ≤ b.value := Nat.not_lt.mp fun hlt => hbfree (hafirst b hblo hlt)
      have hge : b.value ≤ a.value := Nat.not_lt.mp fun hlt => hafree (hbfirst a halo hlt)
      obtain ⟨v, _⟩ := a
      obtain ⟨w, _⟩ := b
      simp only [Address.mk.injEq]
      exact Nat.le_antisymm hle hge

theorem Seat.IsStuck.not_fits (h : y.IsStuck g policy xs served) :
    ¬y.Fits g policy xs served a := by
  rintro (ha | ⟨-, hoffers, hfree, -⟩)
  · cases h.1.symm.trans ha
  · exact hfree (h.2 a hoffers)

namespace Graph.FirstFit

variable {before ys : List Seat} {as bs : List Address}

/-- A seat behind others that were served gets an address that fits after theirs. -/
theorem exists_fits (h : g.FirstFit policy xs served ys as) (hbefore : before ++ [y] <+: ys)
    (hbs : g.FirstFit policy xs served before bs) :
    ∃ a, y.Fits g policy xs (served ++ bs) a := by
  induction hbs generalizing ys as with
  | nil served =>
    obtain ⟨after, rfl⟩ := hbefore
    obtain _ | ⟨hfits, -⟩ := h
    exact ⟨_, by rwa [List.append_nil]⟩
  | @cons served z b before bs hz _ ih =>
    obtain ⟨after, rfl⟩ := hbefore
    obtain _ | ⟨hfits, hrest⟩ := h
    rw [hfits.unique hz] at hrest
    obtain ⟨a, ha⟩ := ih hrest ⟨after, rfl⟩
    exact ⟨a, by rwa [List.append_assoc] at ha⟩

/-- Nobody is stuck in a run that serves everybody. -/
theorem not_isStuck (h : g.FirstFit policy xs served ys as) (hbefore : before ++ [y] <+: ys)
    (hbs : g.FirstFit policy xs served before bs) : ¬y.IsStuck g policy xs (served ++ bs) := by
  obtain ⟨a, ha⟩ := h.exists_fits hbefore hbs
  exact fun hstuck => hstuck.not_fits ha

end Graph.FirstFit

/-- At most one seat of a run is stuck. -/
theorem eq_of_isStuck {before before' ys : List Seat} {bs bs' : List Address} {y y' : Seat}
    (hy : before ++ [y] <+: ys) (h : g.FirstFit policy xs served before bs)
    (hstuck : y.IsStuck g policy xs (served ++ bs)) (hy' : before' ++ [y'] <+: ys)
    (h' : g.FirstFit policy xs served before' bs')
    (hstuck' : y'.IsStuck g policy xs (served ++ bs')) : before = before' ∧ y = y' := by
  have hlater : ∀ {before before' : List Seat} {y y' : Seat},
      before ++ [y] <+: before' ++ [y'] → before ++ [y] = before' ++ [y'] ∨
        before ++ [y] <+: before' := List.prefix_concat_iff.mp
  have heq : before ++ [y] = before' ++ [y'] := by
    rcases List.prefix_or_prefix_of_prefix hy hy' with hle | hle
    · exact (hlater hle).resolve_right fun hlt => h'.not_isStuck hlt h hstuck
    · exact ((hlater hle).resolve_right fun hlt => h.not_isStuck hlt h' hstuck').symm
  obtain ⟨hbefore, hlast⟩ := List.append_inj' heq rfl
  exact ⟨hbefore, List.singleton_inj.mp hlast⟩

end Fitting

/-! ## Serving seats -/

section Serving

variable {g : Graph} {s : Settings} {policy : AllocationPolicy} {xs : List Subnet}
  {wan : List Block} {roles : List Role} {claims : List Claim} {served : List Address} {y : Seat}
  {candidates : String → Nat → Mac} {pool pool' : Pool} {ys : List Seat}
  {as : List Assignment} {a : Assignment}
variable (hs : s.Valid) (hall : Allocations s wan [] roles xs)

/-- Serving ends at a seat for which no host is free, or after it was served. -/
theorem settle_cons_eq_error {e : TopologyError}
    (h : (settle policy candidates pool (y :: ys)).result = .error e) :
    y.iface.addresses.head? = none ∧ freeHost? policy pool.claims y.subnet = none ∧
        e = .subnetExhausted y.label y.subnet.net.text ∨
      ∃ a pool', y.Serves policy candidates pool a pool' ∧
        (settle policy candidates pool' ys).result = .error e := by
  rw [settle] at h
  rcases Traced.result_bind_eq_error.mp h with h | ⟨⟨mac, generated, pool₁⟩, hmac, h⟩
  · unfold settleMac at h
    split at h <;> cases h
  obtain ⟨hclaims, hmac⟩ := settleMac_eq_ok hmac
  rcases Traced.result_bind_eq_error.mp h with h | ⟨⟨address, explicit, pool₂⟩, haddress, h⟩
  · rw [Traced.result_ofExcept] at h
    unfold settleAddress at h
    rw [hclaims] at h
    split at h
    · cases h
    · next hhead =>
      split at h
      · cases h
      · next hfree =>
        cases h
        exact Or.inl ⟨hhead, hfree, rfl⟩
  obtain ⟨hmacs, haddress⟩ := settleAddress_eq_ok haddress
  rw [hclaims] at haddress
  rw [← hmacs] at hmac
  rcases Traced.result_bind_eq_error.mp h with h | ⟨-, -, h⟩
  · cases h
  rcases Traced.result_bind_eq_error.mp h with h | ⟨done, -, h⟩
  · exact Or.inr ⟨⟨y.machine, y.iface.name, address, mac, y.subnet.role, explicit, generated⟩,
      pool₂, ⟨rfl, rfl, rfl, haddress, hmac⟩, h⟩
  · cases h

include hs hall

/-- Once the declared addresses of all seats are claimed, the claims are what is held before
anybody is served. -/
theorem records_claimsAfter
    (hacc : g.Accepts policy xs (seats g (placementsOf g) xs)) :
    g.Records policy xs (g.claimsAfter policy xs (seats g (placementsOf g) xs)) [] := by
  intro x hx a ha
  have hcontains := hall.contains_of_between hs hx ha.1 ha.2
  have hseats : ∀ y ∈ seats g (placementsOf g) xs, y.subnet ∈ xs := fun y hy =>
    (mem_seats.mp hy).1
  have htaken : (holder? policy (g.claimsAfter policy xs (seats g (placementsOf g) xs)) x.role
      a).isSome = true ↔ g.IsTaken policy xs (seats g (placementsOf g) xs) a := by
    rw [holder?_claimsAfter hs hall hseats hacc hx hcontains, Option.isSome_map, List.find?_isSome,
      isTaken_iff]
    simp
  rw [htaken]
  constructor
  · rintro (⟨z, hz, rfl⟩ | ⟨z, hz, hdeclared⟩ | ⟨hpolicy, m, hm, i, hi, ha⟩)
    · obtain rfl := hall.eq_of_contains hz hx (hall.contains_gateway hs hz) hcontains
      exact absurd ha.1 (Nat.lt_irrefl _)
    · have hhost := hacc.isHostOf hz hdeclared
      have hsubnet := hall.eq_of_contains (hseats z hz) hx (contains_of_isHostOf hhost) hcontains
      exact .declared hz hdeclared (Or.inr (congrArg Subnet.role hsubnet))
    · exact .outer hpolicy hm hi ha
  · rintro (⟨hz, hdeclared, -⟩ | ⟨hpolicy, hm, hi, ha⟩ | ha)
    · exact Or.inr (Or.inl ⟨_, hz, hdeclared⟩)
    · exact Or.inr (Or.inr ⟨hpolicy, _, hm, _, hi, ha⟩)
    · cases ha

namespace Graph.Records

/-- A claim on a host in its own subnet is seen there and nowhere else. -/
theorem snoc (h : g.Records policy xs claims served) (hy : y.subnet ∈ xs) {b : Address}
    (hb : y.subnet.Offers b) : g.Records policy xs (y.claim b :: claims) (served ++ [b]) := by
  intro x hx a ha
  rw [holder?_cons, holds_snoc, ← h x hx a ha]
  by_cases hab : b = a
  · subst hab
    obtain hsubnet := hall.eq_of_contains hy hx (hall.contains_of_between hs hy hb.1 hb.2)
      (hall.contains_of_between hs hx ha.1 ha.2)
    simp [Seat.claim, hsubnet]
  · simp [Seat.claim, hab, Ne.symm hab]

/-- A declared address is held before its seat is served. -/
theorem snoc_declared (h : g.Records policy xs claims served)
    (hacc : g.Accepts policy xs (seats g (placementsOf g) xs))
    (hy : y ∈ seats g (placementsOf g) xs) {b : Address}
    (hb : y.iface.addresses.head? = some b) : g.Records policy xs claims (served ++ [b]) := by
  intro x hx a ha
  rw [holds_snoc, h x hx a ha, iff_self_or]
  rintro rfl
  have hsubnet := hall.eq_of_contains (mem_seats.mp hy).1 hx
    (contains_of_isHostOf (hacc.isHostOf hy hb)) (hall.contains_of_between hs hx ha.1 ha.2)
  exact .declared hy hb (Or.inr (congrArg Subnet.role hsubnet))

/-- A seat that is served gets an address that fits, and what is held is on record again. -/
theorem serves (h : g.Records policy xs pool.claims served)
    (hacc : g.Accepts policy xs (seats g (placementsOf g) xs))
    (hy : y ∈ seats g (placementsOf g) xs) (hserves : y.Serves policy candidates pool a pool') :
    y.Fits g policy xs served a.address ∧
      g.Records policy xs pool'.claims (served ++ [a.address]) := by
  have hsubnet := (mem_seats.mp hy).1
  rcases hserves.address with ⟨-, hhead, hclaims⟩ | ⟨-, hhead, hfree, hclaims⟩
  · rw [hclaims]
    exact ⟨Or.inl hhead, h.snoc_declared hs hall hacc hy hhead⟩
  · obtain ⟨hnone, hoffers⟩ := freeHost?_eq_some hfree
    rw [hclaims]
    refine ⟨Or.inr ⟨hhead, hoffers, fun hheld => ?_, fun b hlo hhi => ?_⟩,
      h.snoc hs hall hsubnet hoffers⟩
    · rw [← h y.subnet hsubnet a.address hoffers, hnone] at hheld
      cases hheld
    · exact (h y.subnet hsubnet b ⟨hlo, hhi.trans hoffers.2⟩).mp (freeHost?_first hfree hlo hhi)

end Graph.Records

/-! ## Runs -/

/-- In a run that serves everybody each seat gets an address that fits after the ones before it. -/
theorem settle_eq_ok_firstFit (hacc : g.Accepts policy xs (seats g (placementsOf g) xs))
    (hrecords : g.Records policy xs pool.claims served)
    (hys : ∀ y ∈ ys, y ∈ seats g (placementsOf g) xs)
    (h : (settle policy candidates pool ys).result = .ok as) :
    g.FirstFit policy xs served ys (as.map (·.address)) ∧
      ∀ before a, before ++ [a] <+: as → ∃ y ∈ ys, y.Gets a ∧
        y.Fits g policy xs (served ++ before.map (·.address)) a.address := by
  induction ys generalizing pool served as with
  | nil =>
    cases h
    exact ⟨.nil served, fun before a ha => by simp at ha⟩
  | cons y ys ih =>
    obtain ⟨hy, hys⟩ := List.forall_mem_cons.mp hys
    obtain ⟨b, rest, pool', rfl, hserves, hrest⟩ := settle_cons_eq_ok h
    obtain ⟨hfits, hrecords⟩ := hrecords.serves hs hall hacc hy hserves
    obtain ⟨hrun, heach⟩ := ih hrecords hys hrest
    refine ⟨.cons hfits hrun, fun before a ha => ?_⟩
    cases before with
    | nil =>
      obtain rfl := (List.cons_prefix_cons.mp ha).1
      exact ⟨y, List.mem_cons_self, hserves.gets, by simpa using hfits⟩
    | cons c before =>
      obtain ⟨rfl, hnext⟩ := List.cons_prefix_cons.mp ha
      obtain ⟨z, hz, hgets, hfits⟩ := heach before a hnext
      exact ⟨z, List.mem_cons_of_mem _ hz, hgets, by simpa using hfits⟩

/-- A run that fails serves some seats and then comes to one that is stuck. -/
theorem exists_of_settle_eq_error (hacc : g.Accepts policy xs (seats g (placementsOf g) xs))
    (hrecords : g.Records policy xs pool.claims served)
    (hys : ∀ y ∈ ys, y ∈ seats g (placementsOf g) xs) {e : TopologyError}
    (h : (settle policy candidates pool ys).result = .error e) :
    ∃ before y bs, before ++ [y] <+: ys ∧ g.FirstFit policy xs served before bs ∧
      y.IsStuck g policy xs (served ++ bs) ∧
      e = .subnetExhausted y.label y.subnet.net.text := by
  induction ys generalizing pool served with
  | nil => cases h
  | cons y ys ih =>
    obtain ⟨hy, hys⟩ := List.forall_mem_cons.mp hys
    rcases settle_cons_eq_error h with ⟨hhead, hfree, rfl⟩ | ⟨b, pool', hserves, hrest⟩
    · refine ⟨[], y, [], ⟨ys, rfl⟩, .nil served, ⟨hhead, fun a ha => ?_⟩, rfl⟩
      rw [List.append_nil]
      exact (hrecords y.subnet (mem_seats.mp hy).1 a ha).mp (freeHost?_none hfree ha)
    · obtain ⟨hfits, hrecords⟩ := hrecords.serves hs hall hacc hy hserves
      obtain ⟨before, z, bs, hz, hrun, hstuck, rfl⟩ := ih hrecords hys hrest
      refine ⟨y :: before, z, b.address :: bs, List.cons_prefix_cons.mpr ⟨rfl, hz⟩,
        .cons hfits hrun, ?_, rfl⟩
      rwa [List.append_assoc] at hstuck

/-- A run fails exactly at a seat that it comes to and that is stuck. -/
theorem settle_eq_error_iff (hacc : g.Accepts policy xs (seats g (placementsOf g) xs))
    (hrecords : g.Records policy xs pool.claims served)
    (hys : ∀ y ∈ ys, y ∈ seats g (placementsOf g) xs) {e : TopologyError} :
    (settle policy candidates pool ys).result = .error e ↔
      ∃ before y bs, before ++ [y] <+: ys ∧ g.FirstFit policy xs served before bs ∧
        y.IsStuck g policy xs (served ++ bs) ∧
        e = .subnetExhausted y.label y.subnet.net.text := by
  refine ⟨exists_of_settle_eq_error hs hall hacc hrecords hys, ?_⟩
  rintro ⟨before, y, bs, hy, hrun, hstuck, rfl⟩
  cases h : (settle policy candidates pool ys).result with
  | ok as =>
    obtain ⟨hall, -⟩ := settle_eq_ok_firstFit hs hall hacc hrecords hys h
    exact absurd hstuck (hall.not_isStuck hy hrun)
  | error e' =>
    obtain ⟨before', y', bs', hy', hrun', hstuck', rfl⟩ :=
      exists_of_settle_eq_error hs hall hacc hrecords hys h
    obtain ⟨rfl, rfl⟩ := eq_of_isStuck hy hrun hstuck hy' hrun' hstuck'
    rfl

end Serving

/-! ## Networks -/

theorem not_exhausted_of_checkDeclaredMacs {g : Graph} {ps : List (MachineId × Role)}
    {e : TopologyError} (h : checkDeclaredMacs g ps = .error e) :
    ∀ w n, e ≠ .subnetExhausted w n := by
  refine forM_error (P := fun e => ∀ w n, e ≠ .subnetExhausted w n) (fun ⟨_, m⟩ _ e he => ?_) h
  dsimp only at he
  split at he <;> cases he
  nofun

/-- The assignment ends with an exhausted subnet exactly if all hardware addresses are there and no
declared address is refused, and then some seat is stuck. -/
theorem assignAddresses_eq_subnetExhausted {g : Graph} {s : Settings} (hs : s.Valid)
    {xs : List Subnet} (hall : Allocations s (wanNetworks g) [] g.servedRoles xs)
    {hash : List UInt8 → List UInt8} {w n : String} :
    (assignAddresses hash g s (placementsOf g) xs).result = .error (.subnetExhausted w n) ↔
      checkDeclaredMacs g (placementsOf g) = .ok () ∧
        g.Accepts s.policy xs (seats g (placementsOf g) xs) ∧
        ∃ before y served, before ++ [y] <+: seats g (placementsOf g) xs ∧
          g.FirstFit s.policy xs [] before served ∧ y.IsStuck g s.policy xs served ∧
          w = y.label ∧ n = y.subnet.net.text := by
  have hseats : ∀ y ∈ seats g (placementsOf g) xs, y.subnet ∈ xs := fun y hy =>
    (mem_seats.mp hy).1
  constructor
  · intro h
    rcases Traced.result_bind_eq_error.mp h with h | ⟨⟨⟩, hmacs, h⟩
    · exact absurd rfl (not_exhausted_of_checkDeclaredMacs h w n)
    rcases Traced.result_bind_eq_error.mp h with h | ⟨claims, hclaims, h⟩
    · obtain ⟨before, y, -, -, hrefused⟩ := (claimDeclared_eq_error hs hall hseats).mp h
      cases hrefused
    · obtain ⟨hacc, rfl⟩ := accepts_of_claimDeclared hs hall hseats hclaims
      obtain ⟨before, y, bs, hy, hrun, hstuck, heq⟩ := exists_of_settle_eq_error hs hall hacc
        (records_claimsAfter hs hall hacc) (fun _ hy => hy) h
      obtain ⟨rfl, rfl⟩ := TopologyError.subnetExhausted.inj heq
      exact ⟨hmacs, hacc, before, y, bs, hy, hrun, hstuck, rfl, rfl⟩
  · rintro ⟨hmacs, hacc, before, y, bs, hy, hrun, hstuck, rfl, rfl⟩
    refine Traced.result_bind_eq_error.mpr (Or.inr ⟨(), hmacs, ?_⟩)
    refine Traced.result_bind_eq_error.mpr (Or.inr
      ⟨_, claimDeclared_eq_ok hs hall hseats hacc, ?_⟩)
    exact (settle_eq_error_iff hs hall hacc (records_claimsAfter hs hall hacc)
      fun _ hy => hy).mpr ⟨before, y, bs, hy, hrun, hstuck, rfl⟩

/-- Addresses that were not declared, in every network : each is the first host behind the gateway
of its subnet that is not held by a declaration, an outer interface or a seat served before; and the
construction ends with an exhausted subnet exactly if the hardware addresses are there, no declared
address is refused, and a seat without one is come to when every host behind its gateway is held. -/
theorem automatic_addresses_first_fit (g : Graph) (s : Settings) (hs : s.Valid) :
    (∀ t, (Topology.ofGraph g s).result = .ok t → ∀ before a, before ++ [a] <+: t.assignments →
      a.explicit = false → ∃ x ∈ t.subnets, a.role = x.role ∧
        (a.machine, x.role) ∈ placementsOf g ∧ x.Offers a.address ∧
        ¬g.Holds s.policy t.subnets (before.map (·.address)) x.role a.address ∧
        ∀ b, x.gateway.value < b.value → b.value < a.address.value →
          g.Holds s.policy t.subnets (before.map (·.address)) x.role b) ∧
    ∀ w n, (Topology.ofGraph g s).result = .error (.topology (.subnetExhausted w n)) ↔
      ∃ xs, g.ReachesAssignment s xs ∧ checkDeclaredMacs g (placementsOf g) = .ok () ∧
        g.Accepts s.policy xs (seats g (placementsOf g) xs) ∧
        ∃ before y served, before ++ [y] <+: seats g (placementsOf g) xs ∧
          g.FirstFit s.policy xs [] before served ∧ y.IsStuck g s.policy xs served ∧
          w = y.label ∧ n = y.subnet.net.text := by
  refine ⟨fun t ht before a ha hexplicit => ?_, fun w n => ?_⟩
  · have h := Topology.isBuilt_of_ofGraph ht
    have hall := h.allocations
    obtain ⟨-, claims, hclaims, hsettle⟩ := assignAddresses_eq_ok h.assignments
    obtain ⟨hacc, rfl⟩ := accepts_of_claimDeclared hs hall (fun y hy => (mem_seats.mp hy).1) hclaims
    obtain ⟨-, heach⟩ := settle_eq_ok_firstFit hs hall hacc (records_claimsAfter hs hall hacc)
      (fun _ hy => hy) hsettle
    obtain ⟨y, hy, hgets, hfits⟩ := heach before a ha
    obtain ⟨hsubnet, hplace, -⟩ := mem_seats.mp hy
    have hhead : y.iface.addresses.head? = none := by
      simpa [hexplicit] using hgets.explicit_eq
    obtain ⟨-, hoffers, hfree, hfirst⟩ := hfits.resolve_left (by simp [hhead])
    exact ⟨y.subnet, hsubnet, hgets.role_eq, hgets.machine_eq ▸ hplace, hoffers, hfree, hfirst⟩
  · constructor
    · intro h
      have hrouter : findRouter g ≠ .error (.subnetExhausted w n) := by
        unfold findRouter
        split <;> nofun
      obtain ⟨xs, hreach, h⟩ := exists_reachesAssignment hrouter nofun h
      exact ⟨xs, hreach, (assignAddresses_eq_subnetExhausted hs hreach.allocations).mp h⟩
    · rintro ⟨xs, hreach, h⟩
      exact hreach.ofGraph_eq_error
        ((assignAddresses_eq_subnetExhausted hs hreach.allocations).mpr h)

/-- The web server steps past the address that the mail server declares, and in a subnet with one
host behind its gateway nothing is left for it. -/
theorem automatic_addresses_first_fit_mailed :
    Settings.default.Valid ∧ { Settings.default with prefixLength := 30 }.Valid ∧
      (∃ t a rest, (Topology.ofGraph mailedGraph .default).result = .ok t ∧
        t.assignments = a :: rest ∧ a.explicit = false ∧ a.address = .ofOctets 10 10 1 3 ∧
        mailedGraph.Holds Settings.default.policy t.subnets [] .server (.ofOctets 10 10 1 2)) ∧
      ∃ (xs : List Subnet) (y : Seat) (served : List Address), mailedGraph.ReachesAssignment
          { Settings.default with prefixLength := 30 } xs ∧
        y.IsStuck mailedGraph Settings.default.policy xs served ∧ y.label = "web" ∧
        y.subnet.net.text = "10.10.1.0/30" := by
  have hvalid : Settings.default.Valid := by decide
  have hnarrow : { Settings.default with prefixLength := 30 }.Valid := by decide
  refine ⟨hvalid, hnarrow, ?_, ?_⟩
  · have hlab : (Topology.ofGraph mailedGraph .default).result.map (fun t => decide (
        t.subnets.map (fun x => (x.role, x.gateway)) = [(.server, .ofOctets 10 10 1 1)] ∧
        t.assignments.map (fun a => (a.explicit, a.address)) =
          [(false, .ofOctets 10 10 1 3), (true, .ofOctets 10 10 1 2)])) = .ok true := by
      decide +kernel
    obtain ⟨t, ht, hlab⟩ := map_eq_ok.mp hlab
    obtain ⟨hsubnets, hassignments⟩ := of_decide_eq_true hlab
    obtain ⟨a, rest, hlist, ha, -⟩ := List.map_eq_cons_iff.mp hassignments
    obtain ⟨hexplicit, haddress⟩ := Prod.mk.inj ha
    obtain ⟨x, hx, -, -, -, -, hfirst⟩ := (automatic_addresses_first_fit mailedGraph .default
      hvalid).1 t ht [] a ⟨rest, hlist.symm⟩ hexplicit
    have hgateway : (x.role, x.gateway) = (.server, .ofOctets 10 10 1 1) :=
      List.mem_singleton.mp (hsubnets ▸ List.mem_map_of_mem hx)
    obtain ⟨hrole, hgateway⟩ := Prod.mk.inj hgateway
    rw [hrole, hgateway, haddress] at hfirst
    exact ⟨t, a, rest, ht, hlist, hexplicit, haddress,
      hfirst (.ofOctets 10 10 1 2) (by decide) (by decide)⟩
  · have hends : (Topology.ofGraph mailedGraph { Settings.default with prefixLength := 30 }).result
        = .error (.topology (.subnetExhausted "web" "10.10.1.0/30")) := by
      decide +kernel
    obtain ⟨xs, hreach, -, -, -, y, served, -, -, hstuck, hlabel, hnet⟩ :=
      ((automatic_addresses_first_fit mailedGraph _ hnarrow).2 _ _).mp hends
    exact ⟨xs, y, served, hreach, hstuck, hlabel.symm, hnet.symm⟩

end NetworkCompiler
