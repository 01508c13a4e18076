import NetworkCompiler.Proofs.Topology.Assignments
import NetworkCompiler.Proofs.Topology.Independence

/-!
# Policies side by side

Two runs of the allocation, one under each policy. As long as no outer address lies in one of the
allocated subnets, the same addresses in these subnets are held by the same owners in both runs
(`HeldAlike`) : what belongs to another subnet lies in that subnet, and no address lies in two.
Claiming a declared address ends alike in both runs and keeps this true
(`sameOutcome_claimExplicit`), and so does serving the seats (`sameRun_settle`). So the policy makes
no difference (`ofGraph_networkWide_eq`), neither to the topology nor to the fault with which the
allocation ends.
-/

namespace NetworkCompiler

open Ipv4 (Address Block)

/-! ## Two runs -/

section Runs

variable {ε ε' α β γ δ : Type} {V : α → β → Prop} {W : γ → δ → Prop}

/-- The same error, or values that `V` relates. -/
inductive SameOutcome (V : α → β → Prop) : Except ε α → Except ε β → Prop where
  | ok {a : α} {b : β} : V a b → SameOutcome V (.ok a) (.ok b)
  | error (e : ε) : SameOutcome V (.error e) (.error e)

/-- Two loops over one list end alike if their steps do. -/
theorem SameOutcome.foldlM {f : α → γ → Except ε α} {f' : β → γ → Except ε β} {xs : List γ}
    (hstep : ∀ x ∈ xs, ∀ a b, V a b → SameOutcome V (f a x) (f' b x)) {a : α} {b : β}
    (h : V a b) : SameOutcome V (xs.foldlM f a) (xs.foldlM f' b) := by
  induction xs generalizing a b with
  | nil => exact .ok h
  | cons x xs ih =>
    rw [List.foldlM_cons, List.foldlM_cons]
    have hx := hstep x List.mem_cons_self a b h
    generalize f a x = r, f' b x = r' at hx
    cases hx with
    | ok hv => exact ih (fun y hy => hstep y (List.mem_cons_of_mem _ hy)) hv
    | error e => exact .error e

/-- The same events, and outcomes that are alike. -/
structure Traced.SameRun (V : α → β → Prop) (t : Traced ε α) (t' : Traced ε β) : Prop where
  events : t.events = t'.events
  outcome : SameOutcome V t.result t'.result

namespace Traced.SameRun

theorem refl (t : Traced ε α) : SameRun (· = ·) t t := by
  refine ⟨rfl, ?_⟩
  cases t.result with
  | error e => exact .error e
  | ok a => exact .ok rfl

theorem ofExcept {r : Except ε α} {r' : Except ε β} (h : SameOutcome V r r') :
    SameRun V (Traced.ofExcept r) (Traced.ofExcept r') :=
  ⟨rfl, h⟩

theorem bind {t : Traced ε α} {t' : Traced ε β} (h : SameRun V t t') {f : α → Traced ε γ}
    {f' : β → Traced ε δ} (hf : ∀ a b, t.result = .ok a → V a b → SameRun W (f a) (f' b)) :
    SameRun W (t >>= f) (t' >>= f') := by
  obtain ⟨events, result⟩ := t
  obtain ⟨events', result'⟩ := t'
  obtain ⟨hevents, houtcome⟩ := h
  cases houtcome with
  | error e => exact ⟨hevents, .error e⟩
  | ok hv =>
    obtain ⟨hmore, hlast⟩ := hf _ _ rfl hv
    exact ⟨congrArg₂ _ hevents hmore, hlast⟩

theorem mapError {t : Traced ε α} {t' : Traced ε β} (h : SameRun V t t') (f : ε → ε') :
    SameRun V (t.mapError f) (t'.mapError f) := by
  obtain ⟨events, result⟩ := t
  obtain ⟨events', result'⟩ := t'
  obtain ⟨hevents, houtcome⟩ := h
  cases houtcome with
  | error e => exact ⟨hevents, .error (f e)⟩
  | ok hv => exact ⟨hevents, .ok hv⟩

theorem eq {t t' : Traced ε α} (h : SameRun (· = ·) t t') : t = t' := by
  obtain ⟨events, result⟩ := t
  obtain ⟨events', result'⟩ := t'
  obtain ⟨rfl, houtcome⟩ := h
  cases houtcome with
  | error e => rfl
  | ok hv => rw [hv]

end Traced.SameRun

end Runs

/-! ## Claims -/

theorem holder?_cons (policy : AllocationPolicy) (c : Claim) (claims : List Claim) (r : Role)
    (a : Address) : holder? policy (c :: claims) r a =
      if c.address = a && (policy = .networkWide || c.role = some r) then some c.owner
      else holder? policy claims r a := by
  rw [holder?, List.find?_cons]
  split <;> simp_all [holder?]

/-- In the subnets `xs` the same addresses are held by the same owners : under the network-wide
policy after the claims `wide`, and under the other one after the claims `narrow`. -/
def HeldAlike (xs : List Subnet) (wide narrow : List Claim) : Prop :=
  ∀ x ∈ xs, ∀ a, x.net.contains a = true →
    holder? .networkWide wide x.role a = holder? .perSubnet narrow x.role a

/-- The claim is on an address of the subnet it belongs to. -/
def Claim.IsWithin (xs : List Subnet) (c : Claim) : Prop :=
  ∃ x ∈ xs, c.role = some x.role ∧ x.net.contains c.address = true

/-- No address of an outer interface lies in one of the subnets. -/
def Graph.OuterApart (g : Graph) (xs : List Subnet) : Prop :=
  ∀ x ∈ xs, ∀ m ∈ g.machines, ∀ i ∈ m.wan, ∀ a ∈ i.addresses, x.net.contains a = false

instance (g : Graph) (xs : List Subnet) : Decidable (g.OuterApart xs) :=
  inferInstanceAs (Decidable (∀ x ∈ xs, ∀ m ∈ g.machines, ∀ i ∈ m.wan, ∀ a ∈ i.addresses,
    x.net.contains a = false))

section Alike

variable {s : Settings} {wan : List Block} {taken : List Subnet} {roles : List Role}
  {xs : List Subnet} {wide narrow : List Claim}
variable (hall : Allocations s wan taken roles xs)
include hall

/-- A claim within a subnet is seen under both policies or under neither, because no other subnet
holds its address. -/
theorem HeldAlike.cons (h : HeldAlike xs wide narrow) {c : Claim} (hc : c.IsWithin xs) :
    HeldAlike xs (c :: wide) (c :: narrow) := by
  obtain ⟨y, hy, hrole, hcontains⟩ := hc
  intro x hx a ha
  rw [holder?_cons, holder?_cons, h x hx a ha]
  by_cases haddress : c.address = a
  · obtain rfl : y = x := hall.eq_of_contains hy hx hcontains (haddress ▸ ha)
    simp [hrole]
  · simp [haddress]

theorem HeldAlike.append (h : HeldAlike xs wide narrow) {cs : List Claim}
    (hcs : ∀ c ∈ cs, c.IsWithin xs) : HeldAlike xs (cs ++ wide) (cs ++ narrow) := by
  induction cs with
  | nil => exact h
  | cons c cs ih =>
    obtain ⟨hc, hcs⟩ := List.forall_mem_cons.mp hcs
    exact (ih hcs).cons hall hc

variable (hs : s.Valid)
include hs

/-- What is claimed before any machine inside is looked at : the gateways, each in its subnet, and
under the network-wide policy the outer addresses, which are in none. -/
theorem heldAlike_initialClaims {g : Graph} (hwan : g.OuterApart xs) :
    HeldAlike xs (initialClaims g .networkWide xs) (initialClaims g .perSubnet xs) := by
  have houter : HeldAlike xs (wanClaims g).reverse [] := by
    intro x hx a ha
    refine holder?_networkWide.mpr fun c hc haddress => ?_
    simp only [List.mem_reverse, wanClaims, List.mem_flatMap, List.mem_map] at hc
    obtain ⟨m, hm, i, hi, b, hb, rfl⟩ := hc
    obtain rfl : b = a := haddress
    rw [hwan x hx m hm i hi b hb] at ha
    cases ha
  have hgateways : ∀ c ∈ (gatewayClaims xs).reverse, c.IsWithin xs := by
    intro c hc
    obtain ⟨x, hx, rfl⟩ := List.mem_map.mp (List.mem_reverse.mp hc)
    exact ⟨x, hx, rfl, hall.contains_gateway hs hx⟩
  have happend := houter.append hall hgateways
  rwa [← List.reverse_append, List.append_nil] at happend

/-! ## Declared addresses -/

omit hs in
theorem sameOutcome_claimExplicit (h : HeldAlike xs wide narrow) {x : Seat}
    (hx : x.subnet ∈ xs) : SameOutcome (HeldAlike xs) (claimExplicit .networkWide wide x)
      (claimExplicit .perSubnet narrow x) := by
  unfold claimExplicit
  cases x.iface.addresses.head? with
  | none => exact .ok h
  | some a =>
    dsimp only
    cases hhost : isHostOf x.subnet.net a with
    | false => exact .error _
    | true =>
      have hcontains := contains_of_isHostOf hhost
      rw [h x.subnet hx a hcontains]
      cases holder? .perSubnet narrow x.subnet.role a with
      | some owner => exact .error _
      | none => exact .ok (h.cons hall ⟨x.subnet, hx, rfl, hcontains⟩)

/-! ## Serving seats -/

theorem freeHost?_networkWide_eq (h : HeldAlike xs wide narrow) {x : Subnet} (hx : x ∈ xs) :
    freeHost? .networkWide wide x = freeHost? .perSubnet narrow x := by
  refine firstAddress?_congr fun k hk => ?_
  have hlast := x.net.broadcast.value_lt
  rw [Block.hostCountAfter] at hk
  have hvalue : (Address.ofNat (x.gateway.value + 1 + k)).value = x.gateway.value + 1 + k :=
    Nat.mod_eq_of_lt (by omega)
  rw [h x hx _ (hall.contains_of_between hs hx (by omega) (by omega))]

/-- The same hardware addresses are in use, and the same addresses are held in the subnets. -/
def Pool.Alike (xs : List Subnet) (p q : Pool) : Prop :=
  p.macs = q.macs ∧ HeldAlike xs p.claims q.claims

omit hall hs in
theorem sameRun_settleMac (candidates : String → Nat → Mac) {p q : Pool} (h : p.Alike xs q)
    (x : Seat) : Traced.SameRun
      (fun a b => a.1 = b.1 ∧ a.2.1 = b.2.1 ∧ a.2.2.Alike xs b.2.2)
      (settleMac candidates p x) (settleMac candidates q x) := by
  obtain ⟨hmacs, hheld⟩ := h
  unfold settleMac
  rw [hmacs]
  cases x.iface.mac with
  | some mac => exact ⟨rfl, .ok ⟨rfl, rfl, hmacs, hheld⟩⟩
  | none => exact ⟨rfl, .ok ⟨rfl, rfl, rfl, hheld⟩⟩

theorem sameOutcome_settleAddress {p q : Pool} (h : p.Alike xs q) {x : Seat}
    (hx : x.subnet ∈ xs) :
    SameOutcome (fun a b => a.1 = b.1 ∧ a.2.1 = b.2.1 ∧ a.2.2.Alike xs b.2.2)
      (settleAddress .networkWide p x) (settleAddress .perSubnet q x) := by
  obtain ⟨hmacs, hheld⟩ := h
  unfold settleAddress
  cases x.iface.addresses.head? with
  | some a => exact .ok ⟨rfl, rfl, hmacs, hheld⟩
  | none =>
    dsimp only
    rw [freeHost?_networkWide_eq hall hs hheld hx]
    cases hfree : freeHost? .perSubnet q.claims x.subnet with
    | none => exact .error _
    | some a =>
      obtain ⟨-, hlo, hhi⟩ := freeHost?_eq_some hfree
      have hclaim : (x.claim a).IsWithin xs :=
        ⟨x.subnet, hx, rfl, hall.contains_of_between hs hx hlo hhi⟩
      exact .ok ⟨rfl, rfl, hmacs, hheld.cons hall hclaim⟩

/-- Seats are served alike under both policies. -/
theorem sameRun_settle (candidates : String → Nat → Mac) {seats : List Seat}
    (hseats : ∀ x ∈ seats, x.subnet ∈ xs) {p q : Pool} (h : p.Alike xs q) :
    Traced.SameRun (· = ·) (settle .networkWide candidates p seats)
      (settle .perSubnet candidates q seats) := by
  induction seats generalizing p q with
  | nil => exact .refl _
  | cons x seats ih =>
    obtain ⟨hx, hseats⟩ := List.forall_mem_cons.mp hseats
    rw [settle, settle]
    refine (sameRun_settleMac candidates h x).bind ?_
    rintro ⟨mac, generated, p₁⟩ ⟨_, _, q₁⟩ - ⟨rfl, rfl, h₁⟩
    refine (Traced.SameRun.ofExcept (sameOutcome_settleAddress hall hs h₁ hx)).bind ?_
    rintro ⟨a, explicit, p₂⟩ ⟨_, _, q₂⟩ - ⟨rfl, rfl, h₂⟩
    refine (Traced.SameRun.refl _).bind fun _ _ _ _ => (ih hseats h₂).bind ?_
    rintro rest _ - rfl
    exact .refl _

end Alike

/-! ## Networks -/

/-- The subnets do not depend on the policy. -/
theorem buildVlans_policy (g : Graph) (s : Settings) (policy : AllocationPolicy)
    (label trunk : String) (populated : List Role) (taken : List Subnet) (roles : List Role) :
    buildVlans g { s with policy := policy } label trunk populated taken roles =
      buildVlans g s label trunk populated taken roles := by
  induction roles generalizing taken with
  | nil => rfl
  | cons role roles ih =>
    have hallocate : allocateSubnet { s with policy := policy } (wanNetworks g) taken role =
        allocateSubnet s (wanNetworks g) taken role := rfl
    rw [buildVlans, buildVlans, hallocate]
    simp only [ih]

/-- The assignment comes out alike under both policies. -/
theorem sameRun_assignAddresses {g : Graph} {s : Settings} (hs : s.Valid) {xs : List Subnet}
    (hall : Allocations s (wanNetworks g) [] g.servedRoles xs) (hwan : g.OuterApart xs)
    (hash : List UInt8 → List UInt8) :
    Traced.SameRun (· = ·)
      (assignAddresses hash g { s with policy := .networkWide } (placementsOf g) xs)
      (assignAddresses hash g { s with policy := .perSubnet } (placementsOf g) xs) := by
  have hseats : ∀ x ∈ seats g (placementsOf g) xs, x.subnet ∈ xs := fun x hx =>
    (mem_seats.mp hx).1
  refine (Traced.SameRun.refl _).bind fun _ _ _ _ => ?_
  refine (Traced.SameRun.ofExcept (V := HeldAlike xs) (.foldlM (fun x hx claims claims' h => ?_)
    (heldAlike_initialClaims hall hs hwan))).bind fun claims claims' _ h => ?_
  · exact sameOutcome_claimExplicit hall h (hseats x hx)
  · exact sameRun_settle hall hs _ hseats ⟨rfl, h⟩

/-- If no outer address lies in a subnet that is allocated, the policy makes no difference : the
allocation ends with the same topology or with the same fault, and reports the same events. -/
theorem ofGraph_networkWide_eq (g : Graph) (s : Settings) (hs : s.Valid)
    (hwan : ∀ xs, Allocations s (wanNetworks g) [] g.servedRoles xs → g.OuterApart xs) :
    Topology.ofGraph g { s with policy := .networkWide } =
      Topology.ofGraph g { s with policy := .perSubnet } := by
  unfold Topology.ofGraph Topology.ofGraphBy
  simp only [buildVlans_policy]
  refine Traced.SameRun.eq ((Traced.SameRun.refl _).bind ?_)
  rintro ⟨router, m⟩ _ - rfl
  refine (Traced.SameRun.refl _).bind ?_
  rintro ⟨trunk, bonded⟩ _ - rfl
  refine (Traced.SameRun.refl _).bind ?_
  rintro built _ hbuilt rfl
  have hall := (buildVlans_eq_ok.mp hbuilt).1
  refine ((sameRun_assignAddresses hs hall (hwan _ hall) _).mapError _).bind ?_
  rintro assignments _ - rfl
  exact .refl _

/-- The network of `routedGraph` with a mail server at the first host behind the gateway. -/
def mailedGraph : Graph :=
  { routedGraph with machines := routedGraph.machines ++ [
    { label := "mail", roles := [.server, .dedicated], fqdn := "mail.lan",
      lan := [{ Interface.new "lan0" .static .lan with
        mac := some ⟨2, 0, 0, 0, 0, 2⟩, addresses := [.ofOctets 10 10 1 2] }] }] }

/-- The servers' subnet is beside the router's outer address. -/
theorem ofGraph_networkWide_eq_mailed :
    Settings.default.Valid ∧
    (∀ xs, Allocations .default (wanNetworks mailedGraph) [] mailedGraph.servedRoles xs →
      mailedGraph.OuterApart xs) ∧
    (∃ m ∈ mailedGraph.machines, ∃ i ∈ m.wan, i.addresses = [.ofOctets 10 10 0 5]) ∧
    ∃ t, (Topology.ofGraph mailedGraph { Settings.default with policy := .networkWide }).result =
        .ok t ∧
      (Topology.ofGraph mailedGraph { Settings.default with policy := .perSubnet }).result = .ok t ∧
      t.subnets.map (·.net.text) = ["10.10.1.0/24"] ∧
      t.assignments.map (·.address.text) = ["10.10.1.3", "10.10.1.2"] := by
  have hvalid : Settings.default.Valid := by decide
  have hlab : (Topology.ofGraph mailedGraph { Settings.default with policy := .networkWide }
      ).result.map (fun t => decide (mailedGraph.OuterApart t.subnets ∧
        t.subnets.map (·.net.text) = ["10.10.1.0/24"] ∧
        t.assignments.map (·.address.text) = ["10.10.1.3", "10.10.1.2"])) = .ok true := by
    decide +kernel
  obtain ⟨t, ht, hlab⟩ := map_eq_ok.mp hlab
  obtain ⟨houter, hnets, haddresses⟩ := of_decide_eq_true hlab
  have hwan : ∀ xs, Allocations .default (wanNetworks mailedGraph) [] mailedGraph.servedRoles xs →
      mailedGraph.OuterApart xs := fun xs hall => by
    rwa [hall.unique (Topology.isBuilt_of_ofGraph ht).allocations]
  have hsame := ofGraph_networkWide_eq mailedGraph .default hvalid hwan
  exact ⟨hvalid, hwan, by decide, t, ht, hsame ▸ ht, hnets, haddresses⟩

end NetworkCompiler
