import NetworkCompiler.Proofs.Firewall.Forwarding
import NetworkCompiler.Proofs.Topology.Assignments

/-!
# Throttled machines

The chain of a throttled machine's own traffic drops first what the machine sends too much
(`decision_egress_of_throttled`). But the forwarding chain lets known connections through before it
enters any chain, and it enters this one behind the chains of the machines in front and behind the
other chains of the machine itself. `Overtakes` says what lets a packet through by then, and
`decision_of_throttled` that it is dropped if nothing does : the rules in front of the jump
(`leadingRules`) accept a packet or leave it alone. No two machines have an address in common
(`eq_of_mem_addresses`), so no other machine's own traffic is looked at before.
-/

namespace NetworkCompiler

open Ipv4 (Address)

namespace Firewall

variable {hosts : String → Address → Bool} {k : Packet} {enter : String → Option Verdict}

/-! ## Jumps -/

/-- The jumps from the forwarding chain by one address of a machine. -/
def addressJumps (m : MachineRules) (a : Address) : List PacketRule :=
  [⟨forwardChain, [.toAddress a], .jump m.chains.ingress⟩,
    ⟨forwardChain, [.fromAddress a], .jump m.chains.forward⟩,
    ⟨forwardChain, [.fromAddress a], .jump m.chains.egress⟩]

theorem jumps_eq_flatMap (m : MachineRules) : jumps m = m.addresses.flatMap (addressJumps m) :=
  rfl

section Router

variable {g : Graph} {p : FirewallPlan} {r : Ruleset} (hp : p.IsNamed)
  (hr : Ruleset.router? g p = .ok r) {m : MachineRules} (hm : m ∈ membersOf p) (depth : Nat)
include hp hr hm

theorem decision_ingress_eq_none_or :
    r.loadedFilter.decision hosts k (depth + 1) m.chains.ingress = none ∨
      r.loadedFilter.decision hosts k (depth + 1) m.chains.ingress = some .accept := by
  rw [Table.decision, rulesOf_ingress hp hr hm]
  exact (accepting_of_accept fun r hr => (chain_of_mem_acceptFrom hr).2).walk_eq_none_or

theorem decision_forward_eq_none_or :
    r.loadedFilter.decision hosts k (depth + 1) m.chains.forward = none ∨
      r.loadedFilter.decision hosts k (depth + 1) m.chains.forward = some .accept := by
  rw [Table.decision, rulesOf_forward hp hr hm]
  exact (accepting_of_accept fun r hr => (chain_of_mem_acceptTo hr).2).walk_eq_none_or

/-- The chain of a throttled machine's own traffic drops whatever exceeds the limit. -/
theorem decision_egress_of_throttled (hthrottled : m.throttled = true)
    (hlimit : k.aboveLimit = true) :
    r.loadedFilter.decision hosts k (depth + 1) m.chains.egress = some .drop := by
  rw [Table.decision, rulesOf_egress hp hr hm, throttleRules, if_pos hthrottled]
  simp [walk, PacketRule.outcome, PacketRule.applies, Condition.met, hlimit]

/-- The jump towards the machine accepts a packet for the address if the machine listens to it. -/
theorem outcome_jump_ingress {a : Address} :
    (⟨forwardChain, [.toAddress a], .jump m.chains.ingress⟩ : PacketRule).outcome hosts k
        (r.loadedFilter.decision hosts k (depth + 1)) = some .accept ↔
      k.destination = a ∧ ∃ x ∈ m.towards, Meets hosts k x x.sources k.source := by
  rw [outcome_jump, ← decision_ingress hp hr hm depth]
  simp [Condition.met]

theorem outcome_jump_ingress_eq_none_or {a : Address} :
    (⟨forwardChain, [.toAddress a], .jump m.chains.ingress⟩ : PacketRule).outcome hosts k
        (r.loadedFilter.decision hosts k (depth + 1)) = none ∨
      (⟨forwardChain, [.toAddress a], .jump m.chains.ingress⟩ : PacketRule).outcome hosts k
        (r.loadedFilter.decision hosts k (depth + 1)) = some .accept := by
  rw [outcome_jump]
  split_ifs
  · exact decision_ingress_eq_none_or hp hr hm depth
  · exact Or.inl rfl

section Addresses

variable {as : List Address} (has : k.source ∉ as)
include has

omit hp hr hm in
/-- Of the jumps by addresses that a packet does not come from, those towards the machine count. -/
theorem mem_addressJumps {q : PacketRule} (hq : q ∈ as.flatMap (addressJumps m)) :
    (∃ a ∈ as, q = ⟨forwardChain, [.toAddress a], .jump m.chains.ingress⟩) ∨
      q.outcome hosts k enter = none := by
  obtain ⟨a, ha, hq⟩ := List.mem_flatMap.mp hq
  have hne : k.source ≠ a := fun heq => has (heq ▸ ha)
  simp only [addressJumps, List.mem_cons, List.not_mem_nil, or_false] at hq
  rcases hq with rfl | rfl | rfl
  · exact Or.inl ⟨a, ha, rfl⟩
  · rw [outcome_jump]
    exact Or.inr (if_neg (by simp [Condition.met, hne]))
  · rw [outcome_jump]
    exact Or.inr (if_neg (by simp [Condition.met, hne]))

theorem accepting_addressJumps :
    Accepting hosts k (r.loadedFilter.decision hosts k (depth + 1))
      (as.flatMap (addressJumps m)) := by
  intro q hq
  rcases mem_addressJumps has hq with ⟨a, -, rfl⟩ | hnone
  · exact outcome_jump_ingress_eq_none_or hp hr hm depth
  · exact Or.inl hnone

/-- Jumps by addresses that a packet does not come from accept it if it is for one of them and the
machine listens to it. -/
theorem exists_accept_addressJumps :
    (∃ q ∈ as.flatMap (addressJumps m),
        q.outcome hosts k (r.loadedFilter.decision hosts k (depth + 1)) = some .accept) ↔
      k.destination ∈ as ∧ ∃ x ∈ m.towards, Meets hosts k x x.sources k.source := by
  constructor
  · rintro ⟨q, hq, haccept⟩
    rcases mem_addressJumps has hq with ⟨a, ha, rfl⟩ | hnone
    · obtain ⟨rfl, hlistens⟩ := (outcome_jump_ingress hp hr hm depth).mp haccept
      exact ⟨ha, hlistens⟩
    · cases hnone.symm.trans haccept
  · rintro ⟨hdestination, hlistens⟩
    exact ⟨_, List.mem_flatMap.mpr ⟨_, hdestination, List.mem_cons_self⟩,
      (outcome_jump_ingress hp hr hm depth).mpr ⟨rfl, hlistens⟩⟩

end Addresses

end Router

/-! ## The forwarding chain -/

section Forwarding

variable {g : Graph} {p : FirewallPlan} {r : Ruleset} (hp : p.IsNamed)
  (hr : Ruleset.router? g p = .ok r) (depth : Nat)

/-- The rules of the forwarding chain in front of the jump into a machine's chain for what it sends
from an address : `kept` are the machines in front, `front` the machine's addresses in front. -/
def leadingRules (kept : List MachineRules) (m : MachineRules) (front : List Address)
    (a : Address) : List PacketRule :=
  ⟨forwardChain, [.established], .accept⟩ :: (kept.flatMap jumps ++
    (front.flatMap (addressJumps m) ++
      [⟨forwardChain, [.toAddress a], .jump m.chains.ingress⟩,
        ⟨forwardChain, [.fromAddress a], .jump m.chains.forward⟩]))

include hp hr in
/-- The forwarding chain has these rules in front of that jump. -/
theorem rulesOf_forwardChain_eq_leadingRules {kept rest : List MachineRules} {m : MachineRules}
    {front back : List Address} {a : Address} (hmembers : membersOf p = kept ++ m :: rest)
    (haddresses : m.addresses = front ++ a :: back) :
    r.loadedFilter.rulesOf forwardChain = leadingRules kept m front a ++
      ⟨forwardChain, [.fromAddress a], .jump m.chains.egress⟩ ::
        (back.flatMap (addressJumps m) ++ rest.flatMap jumps) := by
  rw [rulesOf_forwardChain hp hr, hmembers, List.flatMap_append, List.flatMap_cons,
    jumps_eq_flatMap m, haddresses, List.flatMap_append, List.flatMap_cons, addressJumps,
    leadingRules]
  simp

theorem outcome_established_iff :
    (⟨forwardChain, [.established], .accept⟩ : PacketRule).outcome hosts k enter = some .accept ↔
      k.established = true := by
  rw [outcome_of_accept rfl]
  simp [PacketRule.applies, Condition.met]

theorem outcome_established_eq_none_or :
    (⟨forwardChain, [.established], .accept⟩ : PacketRule).outcome hosts k enter = none ∨
      (⟨forwardChain, [.established], .accept⟩ : PacketRule).outcome hosts k enter =
        some .accept := by
  rw [outcome_of_accept rfl]
  split_ifs
  · exact Or.inr rfl
  · exact Or.inl rfl

section Leading

variable {kept : List MachineRules} {m : MachineRules} {front : List Address}
  (hkept : ∀ w ∈ kept, w ∈ membersOf p) (hm : m ∈ membersOf p)
  (hsource : ∀ w ∈ kept, k.source ∉ w.addresses) (hfront : k.source ∉ front)
include hp hr hkept hm hsource hfront

theorem accepting_leadingRules :
    Accepting hosts k (r.loadedFilter.decision hosts k (depth + 1))
      (leadingRules kept m front k.source) := by
  refine List.forall_mem_cons.mpr ⟨outcome_established_eq_none_or,
    List.forall_mem_append.mpr ⟨fun q hq => ?_,
      List.forall_mem_append.mpr ⟨accepting_addressJumps hp hr hm depth hfront,
        List.forall_mem_cons.mpr ⟨outcome_jump_ingress_eq_none_or hp hr hm depth,
          List.forall_mem_singleton.mpr ?_⟩⟩⟩⟩
  · obtain ⟨w, hw, hq⟩ := List.mem_flatMap.mp hq
    exact accepting_addressJumps hp hr (hkept w hw) depth (hsource w hw) q hq
  · rw [outcome_jump]
    split_ifs
    · exact decision_forward_eq_none_or hp hr hm depth
    · exact Or.inl rfl

theorem exists_accept_leadingRules :
    (∃ q ∈ leadingRules kept m front k.source,
        q.outcome hosts k (r.loadedFilter.decision hosts k (depth + 1)) = some .accept) ↔
      k.established = true ∨
      (∃ w ∈ kept, k.destination ∈ w.addresses ∧
        ∃ x ∈ w.towards, Meets hosts k x x.sources k.source) ∨
      (k.destination ∈ front ++ [k.source] ∧
        ∃ x ∈ m.towards, Meets hosts k x x.sources k.source) ∨
      ∃ x ∈ m.forward, Meets hosts k x x.destinations k.destination := by
  have hjumps : (∃ q ∈ kept.flatMap jumps,
      q.outcome hosts k (r.loadedFilter.decision hosts k (depth + 1)) = some .accept) ↔
        ∃ w ∈ kept, k.destination ∈ w.addresses ∧
          ∃ x ∈ w.towards, Meets hosts k x x.sources k.source := by
    rw [exists_mem_flatMap]
    exact exists_congr fun w => and_congr_right fun hw =>
      exists_accept_addressJumps hp hr (hkept w hw) depth (hsource w hw)
  have hforward : (⟨forwardChain, [.fromAddress k.source], .jump m.chains.forward⟩ :
      PacketRule).outcome hosts k (r.loadedFilter.decision hosts k (depth + 1)) = some .accept ↔
        ∃ x ∈ m.forward, Meets hosts k x x.destinations k.destination := by
    rw [outcome_jump, ← decision_forward hp hr hm depth]
    simp [Condition.met]
  simp only [leadingRules, List.mem_cons, List.mem_append, List.not_mem_nil, or_false, or_and_right,
    exists_or, exists_eq_left, outcome_established_iff, hjumps, exists_accept_addressJumps hp hr hm depth hfront,
    outcome_jump_ingress hp hr hm depth, hforward, or_assoc]

end Leading

/-- The machines with chains in front of one of them are those in front of it that have chains. -/
theorem exists_membersOf_eq {before after : List MachineRules} {m : MachineRules}
    (hmembers : p.members = before ++ m :: after) (hm : m ∈ membersOf p) :
    ∃ kept rest, membersOf p = kept ++ m :: rest ∧
      ∀ w, w ∈ kept ↔ w ∈ before ∧ w ∈ membersOf p := by
  have hkept : ∀ w, w ∈ membersOf p ↔
      w ∈ p.members ∧ (!w.isEmpty && !w.addresses.isEmpty) = true := fun w => List.mem_filter
  refine ⟨before.filter fun m => !m.isEmpty && !m.addresses.isEmpty,
    after.filter fun m => !m.isEmpty && !m.addresses.isEmpty, ?_, fun w => ?_⟩
  · rw [membersOf, hmembers, List.filter_append, List.filter_cons, if_pos ((hkept m).mp hm).2]
  · rw [List.mem_filter, hkept, hmembers]
    exact and_congr_right fun hw => (and_iff_right (List.mem_append_left _ hw)).symm

/-- The addresses of a machine up to one of them. -/
def addressesUpTo (m : MachineRules) (a : Address) : List Address :=
  m.addresses.takeWhile (fun b => decide (b ≠ a)) ++ [a]

theorem addressesUpTo_eq {m : MachineRules} {front back : List Address} {a : Address}
    (haddresses : m.addresses = front ++ a :: back) (hfront : a ∉ front) :
    addressesUpTo m a = front ++ [a] := by
  have hne : ∀ b ∈ front, decide (b ≠ a) = true := fun b hb =>
    decide_eq_true fun heq => hfront (heq ▸ hb)
  rw [addressesUpTo, haddresses, List.takeWhile_append_of_pos hne,
    List.takeWhile_cons_of_neg (by simp), List.append_nil]

/-- What lets a packet through before the limit of the machine it comes from is looked at. -/
inductive Overtakes (hosts : String → Address → Bool) (k : Packet) (before : List MachineRules)
    (m : MachineRules) : Prop where
  /-- It belongs to a connection that is known already. -/
  | known : k.established = true → Overtakes hosts k before m
  /-- A machine in front listens to it. -/
  | inFront {w : MachineRules} {x : ResolvedRule} : w ∈ before → k.destination ∈ w.addresses →
      x ∈ w.towards → Meets hosts k x x.sources k.source → Overtakes hosts k before m
  /-- The machine itself listens to it, at an address that is no further back. -/
  | itself {x : ResolvedRule} : k.destination ∈ addressesUpTo m k.source →
      x ∈ m.towards → Meets hosts k x x.sources k.source → Overtakes hosts k before m
  /-- The machine may open it to another machine. -/
  | forwarded {x : ResolvedRule} : x ∈ m.forward →
      Meets hosts k x x.destinations k.destination → Overtakes hosts k before m

/-- Of the machines in front only those with chains matter. -/
theorem overtakes_iff {before after kept : List MachineRules} {m : MachineRules}
    (hmembers : p.members = before ++ m :: after)
    (hkept : ∀ w, w ∈ kept ↔ w ∈ before ∧ w ∈ membersOf p) :
    Overtakes hosts k before m ↔ k.established = true ∨
      (∃ w ∈ kept, k.destination ∈ w.addresses ∧
        ∃ x ∈ w.towards, Meets hosts k x x.sources k.source) ∨
      (k.destination ∈ addressesUpTo m k.source ∧
        ∃ x ∈ m.towards, Meets hosts k x x.sources k.source) ∨
      ∃ x ∈ m.forward, Meets hosts k x x.destinations k.destination := by
  constructor
  · intro h
    cases h with
    | known h => exact Or.inl h
    | @inFront w x hw hdestination hx hmeets =>
      have hwmember : w ∈ p.members := hmembers ▸ List.mem_append_left _ hw
      have hwchains := mem_membersOf hwmember hdestination (Or.inl hx)
      exact Or.inr (Or.inl ⟨w, (hkept w).mpr ⟨hw, hwchains⟩, hdestination, x, hx, hmeets⟩)
    | itself hdestination hx hmeets => exact Or.inr (Or.inr (Or.inl ⟨hdestination, _, hx, hmeets⟩))
    | forwarded hx hmeets => exact Or.inr (Or.inr (Or.inr ⟨_, hx, hmeets⟩))
  · rintro (h | ⟨w, hw, hdestination, x, hx, hmeets⟩ | ⟨hdestination, x, hx, hmeets⟩ |
      ⟨x, hx, hmeets⟩)
    · exact .known h
    · exact .inFront ((hkept w).mp hw).1 hdestination hx hmeets
    · exact .itself hdestination hx hmeets
    · exact .forwarded hx hmeets

include hp hr

section Throttled

variable {before after : List MachineRules} {m : MachineRules}
  (hmembers : p.members = before ++ m :: after) (hthrottled : m.throttled = true)
  (hsource : k.source ∈ m.addresses) (hlimit : k.aboveLimit = true)
  (hbefore : ∀ w ∈ before, k.source ∉ w.addresses)
include hmembers hthrottled hsource hlimit hbefore

variable (hosts) in
/-- A packet that exceeds the limit of a throttled machine is let through if something overtakes
the limit, and dropped otherwise. -/
theorem decision_of_throttled :
    (Overtakes hosts k before m →
        r.loadedFilter.decision hosts k (depth + 2) forwardChain = some .accept) ∧
      (¬Overtakes hosts k before m →
        r.loadedFilter.decision hosts k (depth + 2) forwardChain = some .drop) := by
  have hm : m ∈ membersOf p := by
    refine List.mem_filter.mpr ⟨hmembers ▸ by simp, ?_⟩
    simp [MachineRules.isEmpty, hthrottled, List.ne_nil_of_mem hsource]
  obtain ⟨kept, rest, hsplit, hkept⟩ := exists_membersOf_eq hmembers hm
  obtain ⟨front, back, haddresses, hfront⟩ := List.eq_append_cons_of_mem hsource
  have hdrop : (⟨forwardChain, [.fromAddress k.source], .jump m.chains.egress⟩ : PacketRule).outcome
      hosts k (r.loadedFilter.decision hosts k (depth + 1)) = some .drop := by
    rw [outcome_jump, decision_egress_of_throttled hp hr hm depth hthrottled hlimit]
    simp [Condition.met]
  have hmembersOf : ∀ w ∈ kept, w ∈ membersOf p := fun w hw => ((hkept w).mp hw).2
  have hapart : ∀ w ∈ kept, k.source ∉ w.addresses := fun w hw => hbefore w ((hkept w).mp hw).1
  have hovertakes : Overtakes hosts k before m ↔ ∃ q ∈ leadingRules kept m front k.source,
      q.outcome hosts k (r.loadedFilter.decision hosts k (depth + 1)) = some .accept := by
    rw [overtakes_iff hmembers hkept, addressesUpTo_eq haddresses hfront,
      exists_accept_leadingRules hp hr depth hmembersOf hm hapart hfront]
  rw [Table.decision, rulesOf_forwardChain_eq_leadingRules hp hr hsplit haddresses, hovertakes]
  exact (accepting_leadingRules hp hr depth hmembersOf hm hapart hfront).walk_append_of_drop hdrop _

end Throttled

variable (hosts) in
/-- A packet that comes from no machine with chains is let through if it is known or a machine
listens to it, and nothing is decided otherwise. -/
theorem decision_of_apart (hapart : ∀ w ∈ membersOf p, k.source ∉ w.addresses) :
    (r.loadedFilter.decision hosts k (depth + 2) forwardChain = some .accept ↔
        k.established = true ∨ ∃ w ∈ p.members, k.destination ∈ w.addresses ∧
          ∃ x ∈ w.towards, Meets hosts k x x.sources k.source) ∧
      (r.loadedFilter.decision hosts k (depth + 2) forwardChain = none ∨
        r.loadedFilter.decision hosts k (depth + 2) forwardChain = some .accept) := by
  have haccepting : Accepting hosts k (r.loadedFilter.decision hosts k (depth + 1))
      (⟨forwardChain, [.established], .accept⟩ :: (membersOf p).flatMap jumps) := by
    refine List.forall_mem_cons.mpr ⟨outcome_established_eq_none_or, fun q hq => ?_⟩
    obtain ⟨w, hw, hq⟩ := List.mem_flatMap.mp hq
    exact accepting_addressJumps hp hr hw depth (hapart w hw) q hq
  rw [Table.decision, rulesOf_forwardChain hp hr]
  refine ⟨?_, haccepting.walk_eq_none_or⟩
  rw [haccepting.walk_eq_some_iff, List.exists_mem_cons_iff, outcome_established_iff,
    exists_mem_flatMap]
  refine or_congr_right ⟨?_, ?_⟩
  · rintro ⟨w, hw, haccept⟩
    exact ⟨w, List.mem_of_mem_filter hw,
      (exists_accept_addressJumps hp hr hw depth (hapart w hw)).mp haccept⟩
  · rintro ⟨w, hw, hdestination, x, hx, hmeets⟩
    have hw := mem_membersOf hw hdestination (Or.inl hx)
    exact ⟨w, hw, (exists_accept_addressJumps hp hr hw depth (hapart w hw)).mpr
      ⟨hdestination, x, hx, hmeets⟩⟩

end Forwarding

/-! ## Compiled networks -/

section Compiled

variable {name : String} {d : Description} {s : Settings} {n : CompiledNetwork}
  (hn : (CompiledNetwork.ofDescription name d s).result = .ok n)
include hn

theorem nodup_ids : (n.firewall.machines.map (·.id)).Nodup := by
  obtain ⟨-, -, hp, -⟩ := CompiledNetwork.ofDescription_eq_ok hn
  obtain ⟨-, hmachines⟩ := FirewallPlan.ofTopology_eq_ok hp
  have hids : n.graph.entries.map (·.1) = n.firewall.machines.map (·.id) :=
    map_eq_map_of_forall₂ hmachines fun _ _ h => (FirewallPlan.rulesOf_eq_ok h).1.symm
  rw [← hids]
  exact n.graph.nodup_entries

/-- No two machines of a plan have an address in common. -/
theorem eq_of_mem_addresses (hs : s.Valid) {v w : MachineRules} (hv : v ∈ n.firewall.machines)
    (hw : w ∈ n.firewall.machines) {a : Address} (hav : a ∈ v.addresses) (haw : a ∈ w.addresses) :
    v.id = w.id := by
  obtain ⟨-, ht, hp, -⟩ := CompiledNetwork.ofDescription_eq_ok hn
  obtain ⟨-, hmachines⟩ := FirewallPlan.ofTopology_eq_ok hp
  have haddresses : ∀ m ∈ n.firewall.machines, m.addresses = n.topology.addressesOf m.id := by
    intro m hm
    obtain ⟨e, -, hrules⟩ := exists_of_mem_right hmachines hm
    obtain ⟨hid, -, -, haddresses, -⟩ := FirewallPlan.rulesOf_eq_ok hrules
    rw [haddresses, hid]
  rw [haddresses v hv] at hav
  rw [haddresses w hw] at haw
  exact (Topology.isBuilt_of_ofGraph ht).eq_of_mem_addressesOf hs hav haw

end Compiled

/-- A router, a server that listens for mail, and a throttled camera. -/
def throttledLab : Description where
  domain := some "lan"
  servers := [
    ("mail", { types := ["dedicated"], firewall := { listenTcp := [25] },
               lan := [("lan0", { mac := some "02:00:00:00:00:01" })] }),
    ("router", { types := ["router"], wan := [("eth1", {})], lan := [("eth0", {})] })]
  externalDevices := [("camera", { macs := ["02:00:00:00:00:02"], throttle := true })]

/-- A packet of the camera to a port of the server, beyond the limit. -/
def packetBeyond (port : Nat) (established : Bool) : Packet where
  source := .ofOctets 10 30 0 2
  destination := .ofOctets 10 10 0 2
  payload := .transport .tcp port
  arrival := "externalonly"
  departure := "servers"
  established := established
  aboveLimit := true

/-- What the lab's router does : of three packets of the camera beyond the limit, only the new one
that the server does not listen to is dropped. -/
theorem verdicts_throttledLab :
    ∃ n r, (CompiledNetwork.ofDescription "lab" throttledLab .default).result = .ok n ∧
      Ruleset.router? n.graph n.firewall = .ok r ∧
      (∃ m ∈ n.firewall.members, m.throttled = true ∧ .ofOctets 10 30 0 2 ∈ m.addresses) ∧
      r.loadedFilter.verdict (fun _ _ => false) (packetBeyond 80 false) forwardChain =
        some .drop ∧
      r.loadedFilter.verdict (fun _ _ => false) (packetBeyond 25 false) forwardChain =
        some .accept ∧
      r.loadedFilter.verdict (fun _ _ => false) (packetBeyond 80 true) forwardChain =
        some .accept := by
  have hlab : ((CompiledNetwork.ofDescription "lab" throttledLab .default).result >>= fun n =>
      ((Ruleset.router? n.graph n.firewall).mapError Failure.compile).map fun r => decide (
        (∃ m ∈ n.firewall.members, m.throttled = true ∧ .ofOctets 10 30 0 2 ∈ m.addresses) ∧
        r.loadedFilter.verdict (fun _ _ => false) (packetBeyond 80 false) forwardChain =
          some .drop ∧
        r.loadedFilter.verdict (fun _ _ => false) (packetBeyond 25 false) forwardChain =
          some .accept ∧
        r.loadedFilter.verdict (fun _ _ => false) (packetBeyond 80 true) forwardChain =
          some .accept)) = .ok true := by
    decide +kernel
  obtain ⟨n, hn, hlab⟩ := bind_eq_ok.mp hlab
  obtain ⟨r, hr, hlab⟩ := map_eq_ok.mp hlab
  exact ⟨n, r, hn, mapError_eq_ok.mp hr, of_decide_eq_true hlab⟩

end Firewall

end NetworkCompiler
