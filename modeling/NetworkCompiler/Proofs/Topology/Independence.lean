import NetworkCompiler.Proofs.Topology.Assignments

/-!
# Independent assignments

Two runs of the assignment side by side. Their claims may differ on some addresses `N` and agree
on all others (`AgreeOutside`). Serving the same seat in both keeps this true, and the seat gets
the same address if its block avoids `N` (`Seat.Takes.agree`). Seats that only one of the runs has
keep it true as well, as long as their block lies within `N` (`settle_more`). So what happens in
one block is not seen in any other (`settle_agree`).

The machines of the second run may stand one place further on (`shiftPlace`).
-/

namespace NetworkCompiler

open Ipv4 (Address Block)

/-! ## Seats one place further on -/

/-- The place of a machine once another one has come to place `k`. -/
def shiftPlace (k id : Nat) : Nat :=
  if id < k then id else id + 1

theorem shiftPlace_inj {k i j : Nat} : shiftPlace k i = shiftPlace k j ↔ i = j := by
  unfold shiftPlace
  split <;> split <;> omega

theorem shiftPlace_ne (k id : Nat) : shiftPlace k id ≠ k := by
  unfold shiftPlace
  split <;> omega

/-- The seat of a machine once another one has come to place `k`. -/
def Seat.shift (k : MachineId) (x : Seat) : Seat :=
  { x with machine := shiftPlace k x.machine }

/-! ## Claims that agree -/

variable {N : Address → Prop} {policy : AllocationPolicy} {claims claims' claims'' : List Claim}

/-- The same addresses are held, apart from those in `N`. -/
def AgreeOutside (N : Address → Prop) (policy : AllocationPolicy) (claims claims' : List Claim) :
    Prop :=
  ∀ r a, ¬N a → (holder? policy claims' r a).isNone = (holder? policy claims r a).isNone

theorem isNone_holder?_cons (c : Claim) (r : Role) (a : Address) :
    (holder? policy (c :: claims) r a).isNone =
      (!(c.address = a && (policy = .networkWide || c.role = some r)) &&
        (holder? policy claims r a).isNone) := by
  unfold holder?
  rw [List.find?_cons]
  cases (c.address = a && (policy = .networkWide || c.role = some r) : Bool) <;> rfl

namespace AgreeOutside

theorem refl (claims : List Claim) : AgreeOutside N policy claims claims := fun _ _ _ => rfl

theorem trans (h : AgreeOutside N policy claims claims')
    (h' : AgreeOutside N policy claims' claims'') : AgreeOutside N policy claims claims'' :=
  fun r a ha => (h' r a ha).trans (h r a ha)

theorem mono {M : Address → Prop} (h : AgreeOutside N policy claims claims')
    (hNM : ∀ a, N a → M a) : AgreeOutside M policy claims claims' :=
  fun r a ha => h r a fun hN => ha (hNM a hN)

theorem cons (h : AgreeOutside N policy claims claims') (c : Claim) :
    AgreeOutside N policy (c :: claims) (c :: claims') := fun r a ha => by
  rw [isNone_holder?_cons, isNone_holder?_cons, h r a ha]

/-- A claim on an address in `N` is not seen outside. -/
theorem cons_right {c : Claim} (hc : N c.address) :
    AgreeOutside N policy claims (c :: claims) := fun r a ha => by
  have hne : c.address ≠ a := fun heq => ha (heq ▸ hc)
  rw [isNone_holder?_cons, decide_eq_false hne, Bool.false_and, Bool.not_false, Bool.true_and]

theorem symm (h : AgreeOutside N policy claims claims') : AgreeOutside N policy claims' claims :=
  fun r a ha => (h r a ha).symm

end AgreeOutside

/-! ## Free hosts -/

theorem firstAddress?_congr {free free' : Address → Bool} {count value : Nat}
    (h : ∀ k < count, free' (Address.ofNat (value + k)) = free (Address.ofNat (value + k))) :
    firstAddress? free' count value = firstAddress? free count value := by
  induction count generalizing value with
  | zero => rfl
  | succ count ih =>
    have hhead : free' (Address.ofNat value) = free (Address.ofNat value) := h 0 (by omega)
    rw [firstAddress?, firstAddress?, hhead]
    split
    · rfl
    · refine ih fun k hk => ?_
      have hnext := h (k + 1) (by omega)
      rwa [Nat.add_comm k 1, ← Nat.add_assoc] at hnext

/-- The subnet of a seat shares no address with `N`. -/
def Seat.Avoids (N : Address → Prop) (x : Seat) : Prop :=
  ∀ a, x.subnet.gateway.value < a.value → a.value < x.subnet.net.broadcast.value → ¬N a

/-- All hosts that a seat may get are in `N`. -/
def Seat.Within (N : Address → Prop) (x : Seat) : Prop :=
  ∀ a, x.subnet.gateway.value < a.value → a.value < x.subnet.net.broadcast.value → N a

theorem freeHost?_congr {x : Seat} (h : AgreeOutside N policy claims claims')
    (hx : x.Avoids N) : freeHost? policy claims' x.subnet = freeHost? policy claims x.subnet := by
  refine firstAddress?_congr fun k hk => h _ _ (hx _ ?_ ?_)
  all_goals
    have hlast := x.subnet.net.broadcast.value_lt
    rw [Block.hostCountAfter] at hk
    have hvalue : (Address.ofNat (x.subnet.gateway.value + 1 + k)).value =
        x.subnet.gateway.value + 1 + k := Nat.mod_eq_of_lt (by omega)
    omega

/-! ## One seat -/

/-- A seat takes its declared address, which is claimed already, or claims the first host that is
free. -/
structure Seat.Takes (policy : AllocationPolicy) (held : List Claim) (x : Seat) (a : Assignment)
    (after : List Claim) : Prop where
  machine_eq : a.machine = x.machine
  iface_eq : a.iface = x.iface.name
  role_eq : a.role = x.subnet.role
  address : x.iface.addresses.head? = some a.address ∧ after = held ∨
    x.iface.addresses.head? = none ∧ freeHost? policy held x.subnet = some a.address ∧
      after = x.claim a.address :: held

theorem Seat.Serves.takes {candidates : String → Nat → Mac} {pool pool' : Pool} {x : Seat}
    {a : Assignment} (h : x.Serves policy candidates pool a pool') :
    x.Takes policy pool.claims a pool'.claims :=
  ⟨h.machine_eq, h.iface_eq, h.role_eq, h.address.imp And.right And.right⟩

/-- The claim of a seat that takes a host is not seen outside of its subnet. -/
theorem Seat.Takes.agreeOutside {x : Seat} {a : Assignment}
    (h : x.Takes policy claims a claims') (hx : x.Within N) :
    AgreeOutside N policy claims claims' := by
  rcases h.address with ⟨-, rfl⟩ | ⟨-, hfree, rfl⟩
  · exact .refl _
  · obtain ⟨-, hlo, hhi⟩ := freeHost?_eq_some hfree
    exact .cons_right (hx _ hlo hhi)

/-- A seat that is served in both runs keeps them in agreement, and gets the same address where
they agree. -/
theorem Seat.Takes.agree {k : MachineId} {x : Seat} {a b : Assignment} {after after' : List Claim}
    (ha : x.Takes policy claims a after) (hb : (x.shift k).Takes policy claims' b after')
    (h : AgreeOutside N policy claims claims') (hx : x.Avoids N ∨ x.Within N) :
    AgreeOutside N policy after after' ∧ (x.Avoids N → b.address = a.address) := by
  have hwithin : x.Within N → AgreeOutside N policy after after' := fun hx =>
    ((ha.agreeOutside hx).symm.trans h).trans (hb.agreeOutside (x := x.shift k) hx)
  have havoids : x.Avoids N → b.address = a.address ∧ AgreeOutside N policy after after' := by
    intro hx
    rcases ha.address with ⟨hhead, rfl⟩ | ⟨hhead, hfree, rfl⟩
    · rcases hb.address with ⟨hhead', rfl⟩ | ⟨hhead', -, -⟩
      · exact ⟨Option.some.inj (hhead'.symm.trans hhead), h⟩
      · cases hhead'.symm.trans hhead
    · rcases hb.address with ⟨hhead', -⟩ | ⟨-, hfree', rfl⟩
      · cases hhead'.symm.trans hhead
      · have hsame : freeHost? policy claims' x.subnet = some b.address := hfree'
        rw [freeHost?_congr h hx, hfree] at hsame
        rw [← Option.some.inj hsame]
        exact ⟨rfl, h.cons (x.claim a.address)⟩
  refine ⟨?_, fun hx => (havoids hx).1⟩
  rcases hx with hx | hx
  · exact (havoids hx).2
  · exact hwithin hx

/-! ## All seats -/

section Runs

variable {candidates : String → Nat → Mac} {k : MachineId} {pool pool' : Pool}
  {as as' : List Assignment}

/-- Seats that only one of two runs has. -/
theorem settle_more {ys more : List Seat}
    (h : (settle policy candidates pool (ys ++ more)).result = .ok as)
    (hys : ∀ y ∈ ys, y.machine = k ∧ y.Within N) :
    ∃ new rest pool', as = new ++ rest ∧ (∀ a ∈ new, a.machine = k) ∧
      AgreeOutside N policy pool.claims pool'.claims ∧
      (settle policy candidates pool' more).result = .ok rest := by
  induction ys generalizing pool as with
  | nil => exact ⟨[], as, pool, rfl, by simp, .refl _, h⟩
  | cons y ys ih =>
    obtain ⟨⟨hplace, hwithin⟩, hys⟩ := List.forall_mem_cons.mp hys
    obtain ⟨a, tail, pool₁, rfl, hserves, htail⟩ := settle_cons_eq_ok h
    have htakes := hserves.takes
    obtain ⟨new, rest, pool₂, rfl, hnew, hagree, hrest⟩ := ih htail hys
    refine ⟨a :: new, rest, pool₂, rfl, List.forall_mem_cons.mpr ⟨?_, hnew⟩,
      (htakes.agreeOutside hwithin).trans hagree, hrest⟩
    rw [htakes.machine_eq, hplace]

/-- What a seat gets in two runs that agree outside `N`. -/
def GetsAlike (N : Address → Prop) (k : MachineId) (xs : List Seat) (a b : Assignment) : Prop :=
  b.machine = shiftPlace k a.machine ∧ b.iface = a.iface ∧
    ∃ x ∈ xs, a.machine = x.machine ∧ a.role = x.subnet.role ∧
      (x.Avoids N → b.address = a.address)

/-- Seats that both runs have keep them in agreement, and get the same addresses where they
agree. -/
theorem settle_agree {xs more more' : List Seat}
    (h : (settle policy candidates pool (xs ++ more)).result = .ok as)
    (h' : (settle policy candidates pool' (xs.map (Seat.shift k) ++ more')).result = .ok as')
    (hpools : AgreeOutside N policy pool.claims pool'.claims)
    (hxs : ∀ x ∈ xs, x.Avoids N ∨ x.Within N) :
    ∃ new rest new' rest' after after', as = new ++ rest ∧ as' = new' ++ rest' ∧
      List.Forall₂ (GetsAlike N k xs) new new' ∧
      AgreeOutside N policy after.claims after'.claims ∧
      (settle policy candidates after more).result = .ok rest ∧
      (settle policy candidates after' more').result = .ok rest' := by
  induction xs generalizing pool pool' as as' with
  | nil => exact ⟨[], as, [], as', pool, pool', rfl, rfl, .nil, hpools, h, h'⟩
  | cons x xs ih =>
    obtain ⟨hx, hxs⟩ := List.forall_mem_cons.mp hxs
    obtain ⟨a, tail, pool₁, rfl, ha, htail⟩ := settle_cons_eq_ok h
    obtain ⟨b, tail', pool₁', rfl, hb, htail'⟩ := settle_cons_eq_ok h'
    obtain ⟨hagree, haddress⟩ := ha.takes.agree hb.takes hpools hx
    obtain ⟨new, rest, new', rest', after, after', rfl, rfl, hnew, hafter, hrest, hrest'⟩ :=
      ih htail htail' hagree hxs
    refine ⟨a :: new, rest, b :: new', rest', after, after', rfl, rfl, .cons ?_ ?_, hafter, hrest,
      hrest'⟩
    · refine ⟨?_, hb.iface_eq.trans ha.iface_eq.symm, x, List.mem_cons_self, ha.machine_eq,
        ha.role_eq, haddress⟩
      rw [hb.machine_eq, ha.machine_eq]
      rfl
    · exact hnew.imp fun _ _ ⟨hplace, hiface, y, hy, hsame⟩ =>
        ⟨hplace, hiface, y, List.mem_cons_of_mem _ hy, hsame⟩

end Runs

end NetworkCompiler
