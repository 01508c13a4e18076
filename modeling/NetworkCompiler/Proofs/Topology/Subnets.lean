import Mathlib.Data.List.Pairwise
import NetworkCompiler.Proofs.Dictionary
import NetworkCompiler.Proofs.Interface
import NetworkCompiler.Proofs.Ipv4.Blocks
import NetworkCompiler.Proofs.Results
import NetworkCompiler.Topology.Construction

/-!
# Allocated subnets

`Allocates` says which subnet a role gets beside those that are taken : the first free block from
the role's base, its first host as the gateway, the VLAN of the role's plan. `Allocations` gives
subnets to roles one after the other. `allocateSubnet_eq_ok` and `buildVlans_eq_ok` say that this
is what the allocation does, and `buildVlans_eq_noFreeSubnet` when it finds no room. In settings
that passed their check every role with a VLAN has a plan for it (`Settings.Valid.exists_plan`).

The subnets that are allocated are pairwise apart (`Allocations.pairwise_apart`) and apart from
every outer network (`Allocations.apart_wan`).
-/

namespace NetworkCompiler

open Ipv4 (Address Block)

/-! ## Settings in range -/

namespace Settings

variable {s : Settings}

/-- The ranges that are checked, each value on its own. -/
theorem valid_iff : s.Valid ↔ (8 ≤ s.prefixLength ∧ s.prefixLength ≤ 30) ∧
    (∀ e ∈ s.vlans, 1 ≤ e.2.vlan ∧ e.2.vlan ≤ 4094) ∧ 0 ∉ s.defaultPorts ∧
    ∃ v, MacVendor.ofText? s.macPrefix = some v := by
  have hvlans : (s.vlans.find? fun e => !(1 ≤ e.2.vlan && e.2.vlan ≤ 4094)) = none ↔
      ∀ e ∈ s.vlans, 1 ≤ e.2.vlan ∧ e.2.vlan ≤ 4094 := by
    simp [Nat.one_le_iff_ne_zero]
  rw [Valid, fault?, ← hvlans]
  cases s.vlans.find? fun e => !(1 ≤ e.2.vlan && e.2.vlan ≤ 4094) with
  | some e => split <;> simp
  | none =>
    split_ifs with hlength
    · simp only [Bool.not_eq_true', Bool.and_eq_false_iff, decide_eq_false_iff_not] at hlength
      simp only [false_iff]
      omega
    all_goals simp_all [← Option.ne_none_iff_exists']

theorem Valid.prefixLength_mem (h : s.Valid) : 8 ≤ s.prefixLength ∧ s.prefixLength ≤ 30 :=
  (valid_iff.mp h).1

theorem Valid.vlan_mem (h : s.Valid) {r : Role} {p : VlanPlan} (hp : (r, p) ∈ s.vlans) :
    1 ≤ p.vlan ∧ p.vlan ≤ 4094 :=
  (valid_iff.mp h).2.1 _ hp

theorem Valid.exists_vendor (h : s.Valid) : ∃ v, MacVendor.ofText? s.macPrefix = some v :=
  (valid_iff.mp h).2.2.2

/-- Every role with a VLAN has a plan, and its VLAN is one. -/
theorem Valid.exists_plan (h : s.Valid) {r : Role} (hr : r ∈ Role.vlanEligible) :
    ∃ p, s.vlanFor? r = some p ∧ 1 ≤ p.vlan ∧ p.vlan ≤ 4094 := by
  unfold vlanFor?
  split
  · next p hp => exact ⟨p, rfl, h.vlan_mem (Dictionary.mem_of_get? hp)⟩
  · simp only [Role.vlanEligible, List.mem_cons, List.not_mem_nil, or_false] at hr
    rcases hr with rfl | rfl | rfl | rfl | rfl | rfl <;> exact ⟨_, rfl, by decide, by decide⟩

end Settings

/-! ## Subnets of roles -/

/-- The block at a role's base, where the search for its subnet starts. -/
def Settings.baseBlock? (s : Settings) (r : Role) : Option Block :=
  (s.vlanFor? r).bind fun p => Block.ofAddress? p.base s.prefixLength

/-- Whether a role gets a subnet : guests need no members. -/
def Role.isServed (populated : List Role) (r : Role) : Bool :=
  r ∈ populated || r = .guest

/-- The roles of a network that get a subnet, in order. -/
def Graph.servedRoles (g : Graph) : List Role :=
  (vlanRoles g.autoguest).filter (Role.isServed ((placementsOf g).map (·.2)))

theorem Settings.Valid.exists_baseBlock {s : Settings} (h : s.Valid) {r : Role}
    (hr : r ∈ Role.vlanEligible) : ∃ b, s.baseBlock? r = some b ∧ b.length = s.prefixLength := by
  obtain ⟨p, hp, -⟩ := h.exists_plan hr
  have hlen : s.prefixLength ≤ 32 := by have := h.prefixLength_mem; omega
  refine ⟨Block.ofAddress p.base s.prefixLength hlen, ?_, rfl⟩
  simp [baseBlock?, hp, Block.ofAddress?, hlen]

theorem Settings.length_baseBlock {s : Settings} {r : Role} {b : Block}
    (h : s.baseBlock? r = some b) : b.length = s.prefixLength := by
  obtain ⟨p, -, hp⟩ := Option.bind_eq_some_iff.mp h
  exact Block.length_of_ofAddress? hp

/-! ## One role -/

/-- `x` is the subnet that `role` gets beside the subnets `taken` and the outer networks. -/
structure Allocates (s : Settings) (wan : List Block) (taken : List Subnet) (role : Role)
    (x : Subnet) : Prop where
  role_eq : x.role = role
  iface_eq : x.iface = role.vlanInterface
  gateway_eq : x.gateway = x.net.firstHost
  plan : ∃ p, s.vlanFor? role = some p ∧ x.vlanId = p.vlan
  firstFree : ∃ b, s.baseBlock? role = some b ∧
    Block.FirstFree (takenBlocks taken wan) b x.net

section One

variable {s : Settings} {wan : List Block} {taken : List Subnet} {role : Role}

theorem Allocates.length_eq {x : Subnet} (h : Allocates s wan taken role x) :
    x.net.length = s.prefixLength := by
  obtain ⟨b, hb, n, hn, -⟩ := h.firstFree
  exact (Block.stepUp_eq_some.mp hn).1.trans (Settings.length_baseBlock hb)

theorem Allocates.isFree {x : Subnet} (h : Allocates s wan taken role x) :
    Block.IsFree (takenBlocks taken wan) x.net := by
  obtain ⟨b, -, n, -, hfree, -⟩ := h.firstFree
  exact hfree

theorem allocateSubnet_eq_ok {x : Subnet} :
    allocateSubnet s wan taken role = .ok x ↔ Allocates s wan taken role x := by
  unfold allocateSubnet
  constructor
  · intro h
    split at h
    · cases h
    · next p hp =>
      split at h
      · cases h
      · next net hnet =>
        cases h
        obtain ⟨b, hb, hfree⟩ := Option.bind_eq_some_iff.mp hnet
        exact ⟨rfl, rfl, rfl, ⟨p, hp, rfl⟩, b, by rw [Settings.baseBlock?, hp]; exact hb,
          .of_firstFree? hfree⟩
  · rintro ⟨hrole, hiface, hgateway, ⟨p, hp, hvlan⟩, b, hb, hfree⟩
    rw [Settings.baseBlock?, hp, Option.bind_some] at hb
    simp only [hp, hb, Option.bind_some, Block.firstFree?_eq_some_iff.mpr hfree]
    rw [← hgateway, ← hiface, ← hvlan, ← hrole]

/-- The allocation ends at a role exactly if no block from its base upward is free. -/
theorem allocateSubnet_eq_error {e : TopologyError} :
    allocateSubnet s wan taken role = .error e ↔
      e = .noFreeSubnet role.word s.prefixLength ∧
        ∀ b, s.baseBlock? role = some b → Block.NoneFree (takenBlocks taken wan) b := by
  unfold allocateSubnet Settings.baseBlock?
  cases hp : s.vlanFor? role with
  | none => simp [eq_comm]
  | some p =>
    cases hb : Block.ofAddress? p.base s.prefixLength with
    | none => simp [hb, eq_comm]
    | some b =>
      cases hfree : Block.firstFree? (takenBlocks taken wan) b with
      | none => simp [hb, hfree, Block.firstFree?_eq_none_iff.mp hfree, eq_comm]
      | some net =>
        have hne : ¬Block.NoneFree (takenBlocks taken wan) b := fun h => by
          rw [Block.firstFree?_eq_none_iff.mpr h] at hfree
          cases hfree
        simp [hb, hfree, hne]

end One

/-! ## The VLAN interface -/

theorem Role.isName_vlanInterface (r : Role) : Interface.isName r.vlanInterface = true := by
  cases r <;> decide

/-- The VLAN interface of an allocated subnet is legal on every trunk that has a name. -/
theorem Allocates.exists_vlanInterface {s : Settings} (hs : s.Valid) {wan : List Block}
    {taken : List Subnet} {role : Role} (hr : role ∈ Role.vlanEligible) {x : Subnet}
    (h : Allocates s wan taken role x) {label trunk : String} :
    (∃ i, vlanInterface label trunk x = .ok i) ↔ trunk ≠ "" := by
  obtain ⟨p, hp, hvlan⟩ := h.plan
  obtain ⟨q, hq, hlo, hhi⟩ := hs.exists_plan hr
  cases hp.symm.trans hq
  have hname : Interface.isName x.iface = true := h.iface_eq ▸ role.isName_vlanInterface
  have hid : Interface.isVlanId x.vlanId = true := by simp [Interface.isVlanId, hvlan, hlo, hhi]
  have hgateway : x.net.contains x.gateway = true := by
    rw [h.gateway_eq]
    exact Block.contains_firstHost (h.length_eq ▸ hs.prefixLength_mem.2)
  by_cases htrunk : trunk = "" <;>
    simp [vlanInterface, Interface.checked_eq_ok, Interface.fault?, Interface.kindFault?,
      Interface.strayAddress?, Interface.onVlan, Interface.new, hname, hid, hgateway, htrunk]

/-! ## All roles -/

/-- The subnets that roles get one after the other, beside the subnets `taken`. -/
inductive Allocations (s : Settings) (wan : List Block) :
    List Subnet → List Role → List Subnet → Prop where
  | nil (taken : List Subnet) : Allocations s wan taken [] []
  | cons {taken : List Subnet} {role : Role} {x : Subnet} {roles : List Role}
      {xs : List Subnet} : Allocates s wan taken role x →
      Allocations s wan (taken ++ [x]) roles xs → Allocations s wan taken (role :: roles) (x :: xs)

/-- Among `roles`, the roles before `r` get their subnets and VLANs, and then no block from the
base of `r` upward is free. -/
inductive LacksRoom (s : Settings) (wan : List Block) (trunk : String) :
    List Subnet → List Role → Role → Prop where
  | here {taken : List Subnet} {r : Role} {roles : List Role} {b : Block} :
      s.baseBlock? r = some b → Block.NoneFree (takenBlocks taken wan) b →
      LacksRoom s wan trunk taken (r :: roles) r
  | later {taken : List Subnet} {role r : Role} {x : Subnet} {roles : List Role} :
      Allocates s wan taken role x → trunk ≠ "" →
      LacksRoom s wan trunk (taken ++ [x]) roles r →
      LacksRoom s wan trunk taken (role :: roles) r

namespace Allocations

variable {s : Settings} {wan : List Block} {taken : List Subnet} {roles : List Role}
  {xs : List Subnet}

theorem map_role (h : Allocations s wan taken roles xs) : xs.map (·.role) = roles := by
  induction h with
  | nil => rfl
  | cons hx _ ih => rw [List.map_cons, hx.role_eq, ih]

/-- Every subnet is allocated beside the ones before it. -/
theorem allocates (h : Allocations s wan taken roles xs) {before after : List Subnet}
    {x : Subnet} (hxs : xs = before ++ x :: after) :
    Allocates s wan (taken ++ before) x.role x := by
  induction h generalizing before with
  | nil => cases before <;> cases hxs
  | cons hx _ ih =>
    cases before with
    | nil =>
      cases hxs
      rw [List.append_nil, hx.role_eq]
      exact hx
    | cons y before =>
      cases hxs
      simpa using ih rfl

theorem allocates_of_mem (h : Allocations s wan taken roles xs) {x : Subnet} (hx : x ∈ xs) :
    ∃ before, Allocates s wan (taken ++ before) x.role x := by
  obtain ⟨before, after, hxs⟩ := List.append_of_mem hx
  exact ⟨before, h.allocates hxs⟩

/-- The subnets share no address with each other. -/
theorem pairwise_apart (h : Allocations s wan taken roles xs) :
    xs.Pairwise fun x y => x.net.Apart y.net := by
  rw [List.pairwise_iff_getElem]
  intro i j hi hj hij
  have hsplit : xs = xs.take j ++ xs[j] :: xs.drop (j + 1) := by simp
  refine (h.allocates hsplit).isFree _ (List.mem_append_left _ (List.mem_map_of_mem ?_))
  exact List.mem_append_right _ (List.mem_take_iff_getElem.mpr ⟨i, by omega, rfl⟩)

/-- An address lies in one subnet only. -/
theorem eq_of_contains (h : Allocations s wan taken roles xs) {x y : Subnet} (hx : x ∈ xs)
    (hy : y ∈ xs) {a : Address} (hxa : x.net.contains a = true)
    (hya : y.net.contains a = true) : x = y := by
  by_contra hne
  have : Std.Symm fun x y : Subnet => x.net.Apart y.net := ⟨fun _ _ h => h.symm⟩
  have hapart := h.pairwise_apart.forall hx hy hne a hxa
  rw [hya] at hapart
  cases hapart

/-- Every role's choice is determined by the ones before it. -/
theorem unique (h : Allocations s wan taken roles xs) {ys : List Subnet}
    (h' : Allocations s wan taken roles ys) : xs = ys := by
  induction h generalizing ys with
  | nil =>
    cases h'
    rfl
  | cons hx _ ih =>
    obtain _ | ⟨hy, hys⟩ := h'
    obtain rfl := Except.ok.inj
      ((allocateSubnet_eq_ok.mpr hx).symm.trans (allocateSubnet_eq_ok.mpr hy))
    rw [ih hys]

/-- The subnets share no address with the outer networks. -/
theorem apart_wan (h : Allocations s wan taken roles xs) {x : Subnet} (hx : x ∈ xs) {w : Block}
    (hw : w ∈ wan) : w.Apart x.net := by
  obtain ⟨_, hx⟩ := h.allocates_of_mem hx
  exact hx.isFree w (List.mem_append_right _ hw)

/-- The gateway of a subnet is the address behind its network address. -/
theorem gateway_value (h : Allocations s wan taken roles xs) (hs : s.Valid) {x : Subnet}
    (hx : x ∈ xs) : x.net.length ≤ 30 ∧ x.gateway.value = x.net.network.value + 1 := by
  obtain ⟨_, hx⟩ := h.allocates_of_mem hx
  have hlen : x.net.length ≤ 30 := hx.length_eq ▸ hs.prefixLength_mem.2
  rw [hx.gateway_eq]
  exact ⟨hlen, Block.firstHost_value hlen⟩

theorem contains_gateway (h : Allocations s wan taken roles xs) (hs : s.Valid) {x : Subnet}
    (hx : x ∈ xs) : x.net.contains x.gateway = true := by
  obtain ⟨hlen, hgateway⟩ := h.gateway_value hs hx
  have hsize := Block.four_le_size hlen
  exact Block.contains_iff.mpr ⟨by omega, by omega⟩

theorem contains_of_between (h : Allocations s wan taken roles xs) (hs : s.Valid) {x : Subnet}
    (hx : x ∈ xs) {a : Address} (hlo : x.gateway.value < a.value)
    (hhi : a.value < x.net.broadcast.value) : x.net.contains a = true := by
  obtain ⟨-, hgateway⟩ := h.gateway_value hs hx
  rw [Block.broadcast_value] at hhi
  exact Block.contains_iff.mpr ⟨by omega, by omega⟩

end Allocations

section Build

variable {g : Graph} {s : Settings} {label trunk : String} {populated : List Role}
  {taken : List Subnet} {role : Role} {roles : List Role}

theorem result_buildVlans_skip (h : role.isServed populated = false) :
    (buildVlans g s label trunk populated taken (role :: roles)).result =
      (buildVlans g s label trunk populated taken roles).result := by
  have hskip : (role ∉ populated && role ≠ .guest) = true := by
    simpa [Role.isServed] using h
  rw [buildVlans, if_pos hskip, Traced.result_bind]
  rfl

theorem result_buildVlans_serve (h : role.isServed populated = true) :
    (buildVlans g s label trunk populated taken (role :: roles)).result =
      (do
        let x ← ofTopology (allocateSubnet s (wanNetworks g) taken role)
        let i ← ofInput (vlanInterface label trunk x)
        let more ← (buildVlans g s label trunk populated (taken ++ [x]) roles).result
        pure ((x, i) :: more)) := by
  have hserve : ¬(role ∉ populated && role ≠ .guest) = true := by
    simp only [Role.isServed, Bool.or_eq_true, decide_eq_true_eq] at h
    simp only [Bool.and_eq_true, decide_eq_true_eq, not_and, not_not]
    exact fun hrole => h.resolve_left hrole
  rw [buildVlans, if_neg hserve]
  simp only [Traced.result_bind, Traced.result_ofExcept, Traced.result_report]
  rfl

theorem buildVlans_eq_ok {built : List (Subnet × Interface)} :
    (buildVlans g s label trunk populated taken roles).result = .ok built ↔
      Allocations s (wanNetworks g) taken (roles.filter (Role.isServed populated))
          (built.map (·.1)) ∧
        ∀ b ∈ built, vlanInterface label trunk b.1 = .ok b.2 := by
  induction roles generalizing taken built with
  | nil =>
    constructor
    · intro h
      cases h
      exact ⟨.nil taken, by simp⟩
    · rintro ⟨h, -⟩
      cases built with
      | nil => rfl
      | cons => cases h
  | cons role roles ih =>
    cases hserved : role.isServed populated with
    | false => rw [result_buildVlans_skip hserved, ih, List.filter_cons_of_neg (by simp [hserved])]
    | true =>
      rw [result_buildVlans_serve hserved, List.filter_cons_of_pos hserved]
      constructor
      · intro h
        obtain ⟨x, hx, h⟩ := bind_eq_ok.mp h
        obtain ⟨i, hi, h⟩ := bind_eq_ok.mp h
        obtain ⟨more, hmore, h⟩ := bind_eq_ok.mp h
        cases h
        obtain ⟨hall, hvlans⟩ := ih.mp hmore
        refine ⟨.cons (allocateSubnet_eq_ok.mp (ofTopology_eq_ok.mp hx)) hall, fun b hb => ?_⟩
        rcases List.mem_cons.mp hb with rfl | hb
        · exact ofInput_eq_ok.mp hi
        · exact hvlans b hb
      · rintro ⟨hall, hvlans⟩
        cases built with
        | nil => cases hall
        | cons b built =>
          obtain _ | ⟨hx, hall⟩ := hall
          have hmore := ih.mpr ⟨hall, fun c hc => hvlans c (List.mem_cons_of_mem _ hc)⟩
          rw [allocateSubnet_eq_ok.mpr hx]
          have hi := hvlans b List.mem_cons_self
          refine bind_eq_ok.mpr ⟨b.1, rfl, bind_eq_ok.mpr ⟨b.2, ofInput_eq_ok.mpr hi, ?_⟩⟩
          exact bind_eq_ok.mpr ⟨built, hmore, rfl⟩

theorem buildVlans_serve_eq_error (h : role.isServed populated = true) {e : TopologyError} :
    (buildVlans g s label trunk populated taken (role :: roles)).result = .error (.topology e) ↔
      allocateSubnet s (wanNetworks g) taken role = .error e ∨
        ∃ x, allocateSubnet s (wanNetworks g) taken role = .ok x ∧
          (∃ i, vlanInterface label trunk x = .ok i) ∧
          (buildVlans g s label trunk populated (taken ++ [x]) roles).result =
            .error (.topology e) := by
  rw [result_buildVlans_serve h, bind_eq_error, ofTopology_eq_error]
  refine or_congr_right (exists_congr fun x => ?_)
  rw [ofTopology_eq_ok, bind_eq_error, or_iff_right ofInput_ne_topology]
  simp only [ofInput_eq_ok, bind_eq_error, pure_ne_error, and_false, exists_false, or_false,
    exists_and_right]

/-- The allocation of all roles ends for want of room exactly at a role that lacks it. -/
theorem buildVlans_eq_noFreeSubnet (hs : s.Valid) (hroles : ∀ r ∈ roles, r ∈ Role.vlanEligible)
    {w : String} {n : Nat} :
    (buildVlans g s label trunk populated taken roles).result =
        .error (.topology (.noFreeSubnet w n)) ↔
      n = s.prefixLength ∧ ∃ r, w = r.word ∧
        LacksRoom s (wanNetworks g) trunk taken (roles.filter (Role.isServed populated)) r := by
  induction roles generalizing taken with
  | nil =>
    constructor
    · intro h
      cases h
    · rintro ⟨-, r, -, h⟩
      cases h
  | cons role roles ih =>
    have hrest := fun taken => @ih taken fun r hr => hroles r (List.mem_cons_of_mem _ hr)
    cases hserved : role.isServed populated with
    | false =>
      rw [result_buildVlans_skip hserved, hrest, List.filter_cons_of_neg (by simp [hserved])]
    | true =>
      have hrole := hroles role List.mem_cons_self
      rw [buildVlans_serve_eq_error hserved, List.filter_cons_of_pos hserved]
      constructor
      · rintro (hx | ⟨x, hx, hi, hmore⟩)
        · obtain ⟨heq, hnone⟩ := allocateSubnet_eq_error.mp hx
          obtain ⟨b, hb, -⟩ := hs.exists_baseBlock hrole
          cases heq
          exact ⟨rfl, role, rfl, .here hb (hnone b hb)⟩
        · obtain ⟨hn, r, hw, h⟩ := (hrest _).mp hmore
          have hx := allocateSubnet_eq_ok.mp hx
          exact ⟨hn, r, hw, .later hx ((hx.exists_vlanInterface hs hrole).mp hi) h⟩
      · rintro ⟨rfl, r, rfl, h⟩
        cases h with
        | here hb hnone =>
          refine Or.inl (allocateSubnet_eq_error.mpr ⟨rfl, fun c hc => ?_⟩)
          exact Option.some.inj (hb.symm.trans hc) ▸ hnone
        | later hx htrunk h =>
          exact Or.inr ⟨_, allocateSubnet_eq_ok.mpr hx,
            (hx.exists_vlanInterface hs hrole).mpr htrunk, (hrest _).mpr ⟨rfl, r, rfl, h⟩⟩

end Build

end NetworkCompiler
