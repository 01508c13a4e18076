import NetworkCompiler.Proofs.Firewall.DocumentWords
import NetworkCompiler.Proofs.Firewall.Throttling
import NetworkCompiler.Proofs.Firewall.Translations

/-!
# Redirected packets

Where a packet goes that the router's table redirects. The rules of the redirections are tried in
the order of the plan, so the first redirection that a packet meets takes it
(`verdict_prerouting`). The redirections to one machine stand side by side, and go to an address
that no other machine has. So a redirection takes all that meets it exactly if no redirection to
another machine in front of it contends for a packet (`redirects_effective_iff`).
-/

namespace NetworkCompiler

open Ipv4 (Address Block)

namespace Firewall

/-! ## Meeting redirections -/

/-- A packet that meets the conditions of a redirection. What is redirected for traffic from outside
has to arrive on an outer interface, if there is one. -/
structure IsMetBy (hosts : String → Address → Bool) (p : FirewallPlan) (d : Redirect) (k : Packet) :
    Prop where
  arrives : d.fromOutside = true → k.arrival ∈ p.wanInterfaces ∨ p.wanInterfaces = []
  destination : ∃ e ∈ d.destinations, e.covers hosts k.destination = true
  service : ∃ port, k.payload = .transport d.protocol port ∧ d.ports.covers port = true

/-- Two redirections with a destination, a protocol and a port in common. -/
structure Contends (hosts : String → Address → Bool) (d d' : Redirect) : Prop where
  destination : ∃ a, (∃ e ∈ d.destinations, e.covers hosts a = true) ∧
    ∃ e ∈ d'.destinations, e.covers hosts a = true
  protocol : d.protocol = d'.protocol
  port : ∃ port, d.ports.covers port = true ∧ d'.ports.covers port = true

section Plan

variable {hosts : String → Address → Bool} {p : FirewallPlan} {d d' : Redirect} {k : Packet}

/-- Interfaces never keep two redirections apart. -/
theorem contends_iff : Contends hosts d d' ↔ ∃ k, IsMetBy hosts p d k ∧ IsMetBy hosts p d' k := by
  constructor
  · rintro ⟨⟨a, hdestination, hdestination'⟩, hprotocol, port, hport, hport'⟩
    have harrives : p.wanInterfaces.headD "" ∈ p.wanInterfaces ∨ p.wanInterfaces = [] := by
      cases p.wanInterfaces with
      | nil => exact Or.inr rfl
      | cons w ws => exact Or.inl List.mem_cons_self
    let k : Packet :=
      { source := a, destination := a, payload := .transport d.protocol port,
        arrival := p.wanInterfaces.headD "", departure := "", established := false,
        aboveLimit := false }
    refine ⟨k, ⟨fun _ => harrives, hdestination, port, rfl, hport⟩,
      fun _ => harrives, hdestination', port, ?_, hport'⟩
    rw [← hprotocol]
  · rintro ⟨k, ⟨-, hdestination, port, hpayload, hport⟩, -, hdestination', port', hpayload', hport'⟩
    obtain ⟨hprotocol, rfl⟩ := Payload.transport.inj (hpayload.symm.trans hpayload')
    exact ⟨⟨k.destination, hdestination, hdestination'⟩, hprotocol, port, hport, hport'⟩

/-! ## The first that is met -/

theorem applies_iff {iface : Option String} {e : Endpoint} {v : Verdict} :
    (⟨"PREROUTING", iface.toList.map .into ++ [.destination e, .service d.protocol d.ports],
        v⟩ : PacketRule).applies hosts k = true ↔
      (∀ i ∈ iface, k.arrival = i) ∧ e.covers hosts k.destination = true ∧
        ∃ port, k.payload = .transport d.protocol port ∧ d.ports.covers port = true := by
  rw [PacketRule.applies, List.all_append, Bool.and_eq_true, ← @met_service_iff hosts]
  refine and_congr ?_ ?_
  · cases iface with
    | none => simp
    | some i => simp [Condition.met]
  · simp [Condition.met]

/-- A packet meets a redirection if one of the rules of the redirection applies to it. -/
theorem exists_applies_iff :
    (∃ q ∈ redirectRules p d, q.applies hosts k = true) ↔ IsMetBy hosts p d k := by
  unfold redirectRules
  constructor
  · rintro ⟨q, hq, happlies⟩
    obtain ⟨iface, hiface, hq⟩ := List.mem_flatMap.mp hq
    obtain ⟨e, he, rfl⟩ := List.mem_map.mp hq
    obtain ⟨harrives, hcovers, hservice⟩ := applies_iff.mp happlies
    exact ⟨exists_redirectInterfaces_iff.mp ⟨iface, hiface, harrives⟩, ⟨e, he, hcovers⟩, hservice⟩
  · rintro ⟨harrives, ⟨e, he, hcovers⟩, hservice⟩
    obtain ⟨iface, hiface, harrives⟩ := exists_redirectInterfaces_iff.mpr harrives
    exact ⟨_, List.mem_flatMap.mpr ⟨iface, hiface, List.mem_map_of_mem he⟩,
      applies_iff.mpr ⟨harrives, hcovers, hservice⟩⟩

theorem walk_append_of_verdict {enter : String → Option Verdict} {rs : List PacketRule}
    {target : Address} (h : ∀ q ∈ rs, q.verdict = .redirect target) (qs : List PacketRule) :
    ((∃ q ∈ rs, q.applies hosts k = true) →
        walk hosts k enter (rs ++ qs) = some (.redirect target)) ∧
      ((¬∃ q ∈ rs, q.applies hosts k = true) →
        walk hosts k enter (rs ++ qs) = walk hosts k enter qs) := by
  induction rs with
  | nil => simp
  | cons q rs ih =>
    obtain ⟨hq, hrs⟩ := List.forall_mem_cons.mp h
    rw [List.cons_append, walk, PacketRule.outcome, hq]
    cases happlies : q.applies hosts k with
    | true => simp [happlies]
    | false => simpa [happlies] using ih hrs

variable (hosts p d k) in
/-- A redirection decides about the packets that meet it, and leaves the others alone. -/
theorem walk_redirectRules_append (enter : String → Option Verdict) (qs : List PacketRule) :
    (IsMetBy hosts p d k →
        walk hosts k enter (redirectRules p d ++ qs) = some (.redirect d.target)) ∧
      (¬IsMetBy hosts p d k →
        walk hosts k enter (redirectRules p d ++ qs) = walk hosts k enter qs) := by
  rw [← exists_applies_iff]
  refine walk_append_of_verdict (fun q hq => ?_) qs
  obtain ⟨iface, -, hq⟩ := List.mem_flatMap.mp hq
  obtain ⟨e, -, rfl⟩ := List.mem_map.mp hq
  rfl

variable (hosts p k) in
/-- The first redirection that a packet meets takes it. -/
theorem walk_redirects (enter : String → Option Verdict) (ds : List Redirect) :
    walk hosts k enter (ds.flatMap (redirectRules p)) = none ∧
        (∀ d ∈ ds, ¬IsMetBy hosts p d k) ∨
      ∃ before d after, ds = before ++ d :: after ∧ IsMetBy hosts p d k ∧
        (∀ d' ∈ before, ¬IsMetBy hosts p d' k) ∧
        walk hosts k enter (ds.flatMap (redirectRules p)) = some (.redirect d.target) := by
  induction ds with
  | nil => exact Or.inl ⟨rfl, List.forall_mem_nil _⟩
  | cons d ds ih =>
    obtain ⟨hmet, hpassed⟩ :=
      walk_redirectRules_append hosts p d k enter (ds.flatMap (redirectRules p))
    rw [List.flatMap_cons]
    by_cases hd : IsMetBy hosts p d k
    · exact Or.inr ⟨[], d, ds, rfl, hd, List.forall_mem_nil _, hmet hd⟩
    · rw [hpassed hd]
      rcases ih with ⟨hwalk, hnone⟩ | ⟨before, d', after, rfl, hd', hbefore, hwalk⟩
      · exact Or.inl ⟨hwalk, List.forall_mem_cons.mpr ⟨hd, hnone⟩⟩
      · exact Or.inr ⟨d :: before, d', after, rfl, hd', List.forall_mem_cons.mpr ⟨hd, hbefore⟩,
          hwalk⟩

/-- What the table does to a packet before it is routed. -/
theorem verdict_prerouting (hosts : String → Address → Bool) (p : FirewallPlan) (k : Packet) :
    (natTable p).verdict hosts k "PREROUTING" = some .accept ∧
        (∀ d ∈ p.redirects, ¬IsMetBy hosts p d k) ∨
      ∃ before d after, p.redirects = before ++ d :: after ∧ IsMetBy hosts p d k ∧
        (∀ d' ∈ before, ¬IsMetBy hosts p d' k) ∧
        (natTable p).verdict hosts k "PREROUTING" = some (.redirect d.target) := by
  have hverdict : (natTable p).verdict hosts k "PREROUTING" =
      (walk hosts k ((natTable p).decision hosts k 3) (p.redirects.flatMap (redirectRules p))).or
        (some .accept) := by
    rw [← rulesOf_prerouting]
    rfl
  rw [hverdict]
  rcases walk_redirects hosts p k ((natTable p).decision hosts k 3) p.redirects with
    ⟨hwalk, hnone⟩ | ⟨before, d, after, h⟩
  · exact Or.inl ⟨by rw [hwalk]; rfl, hnone⟩
  · obtain ⟨hsplit, hd, hbefore, hwalk⟩ := h
    exact Or.inr ⟨before, d, after, hsplit, hd, hbefore, by rw [hwalk]; rfl⟩

/-- A packet that meets a redirection is taken by it, or by one in front of it. -/
theorem verdict_of_split {before after : List Redirect}
    (hsplit : p.redirects = before ++ d :: after) (hd : IsMetBy hosts p d k) :
    (natTable p).verdict hosts k "PREROUTING" = some (.redirect d.target) ∧
        (∀ d' ∈ before, ¬IsMetBy hosts p d' k) ∨
      ∃ first d' between, before = first ++ d' :: between ∧ IsMetBy hosts p d' k ∧
        (∀ e ∈ first, ¬IsMetBy hosts p e k) ∧
        (natTable p).verdict hosts k "PREROUTING" = some (.redirect d'.target) := by
  rcases verdict_prerouting hosts p k with ⟨-, hnone⟩ | ⟨first, d', rest, hfirst, hmet, hbefore, hv⟩
  · exact absurd hd (hnone d (by simp [hsplit]))
  rcases List.append_eq_append_iff.mp (hsplit.symm.trans hfirst) with
    ⟨between, rfl, hbetween⟩ | ⟨between, rfl, hbetween⟩
  · cases between with
    | nil =>
      obtain ⟨rfl, -⟩ := List.cons.inj hbetween
      exact Or.inl ⟨hv, by simpa using hbefore⟩
    | cons e between =>
      obtain ⟨rfl, -⟩ := List.cons.inj hbetween
      exact absurd hd (hbefore d (by simp))
  · cases between with
    | nil =>
      obtain ⟨rfl, -⟩ := List.cons.inj hbetween
      exact Or.inl ⟨hv, by simpa using hbefore⟩
    | cons e between =>
      obtain ⟨rfl, -⟩ := List.cons.inj hbetween
      exact Or.inr ⟨first, d', between, rfl, hmet, hbefore, hv⟩

end Plan

/-! ## Owners -/

/-- The place of the machine that a redirection belongs to. -/
def IsAt (g : Graph) (d : Redirect) (id : MachineId) : Prop :=
  ∃ m, g.machine? id = some m ∧ m.label = d.owner

section Owners

variable {name : String} {description : Description} {s : Settings} {n : CompiledNetwork}
  (hn : (CompiledNetwork.ofDescription name description s).result = .ok n)
include hn

theorem IsAt.unique {d d' : Redirect} {i j : MachineId} (howner : d.owner = d'.owner)
    (hi : IsAt n.graph d i) (hj : IsAt n.graph d' j) : i = j := by
  obtain ⟨hg, -, -, -⟩ := CompiledNetwork.ofDescription_eq_ok hn
  obtain ⟨m, hm, hlabel⟩ := hi
  obtain ⟨m', hm', hlabel'⟩ := hj
  exact Graph.id_unique hg hm hm' (by rw [hlabel, hlabel', howner])

/-- A redirection goes to the first address of the machine that it belongs to. -/
theorem exists_isAt {d : Redirect} (hd : d ∈ n.firewall.redirects) :
    ∃ id rest, IsAt n.graph d id ∧ n.topology.addressesOf id = d.target :: rest := by
  obtain ⟨-, -, hp, -⟩ := CompiledNetwork.ofDescription_eq_ok hn
  obtain ⟨id, m, target, rest, hm, haddresses, horigin⟩ :=
    (FirewallPlan.mem_redirects_iff hp).mp hd
  refine ⟨id, rest, ?_, ?_⟩
  · cases horigin <;> exact ⟨m, hm, rfl⟩
  · rw [haddresses]
    cases horigin <;> rfl

/-- Redirections belong to the same machine exactly if they go to the same address. -/
theorem owner_eq_iff_target_eq (hs : s.Valid) {d d' : Redirect} (hd : d ∈ n.firewall.redirects)
    (hd' : d' ∈ n.firewall.redirects) : d.owner = d'.owner ↔ d.target = d'.target := by
  obtain ⟨-, ht, -, -⟩ := CompiledNetwork.ofDescription_eq_ok hn
  obtain ⟨i, rest, hi, haddresses⟩ := exists_isAt hn hd
  obtain ⟨j, rest', hj, haddresses'⟩ := exists_isAt hn hd'
  constructor
  · intro howner
    obtain rfl := IsAt.unique hn howner hi hj
    exact (List.cons.inj (haddresses.symm.trans haddresses')).1
  · intro htarget
    have hmem : d.target ∈ n.topology.addressesOf i := haddresses ▸ List.mem_cons_self
    have hmem' : d.target ∈ n.topology.addressesOf j := by
      rw [haddresses', htarget]
      exact List.mem_cons_self
    obtain rfl := (Topology.isBuilt_of_ofGraph ht).eq_of_mem_addressesOf hs hmem hmem'
    obtain ⟨m, hm, hlabel⟩ := hi
    obtain ⟨m', hm', hlabel'⟩ := hj
    obtain rfl := Option.some.inj (hm.symm.trans hm')
    exact hlabel.symm.trans hlabel'

/-- Redirections stand in the order of the machines that they belong to. -/
theorem pairwise_isAt : n.firewall.redirects.Pairwise fun d d' =>
    ∀ i j, IsAt n.graph d i → IsAt n.graph d' j → i ≤ j := by
  obtain ⟨hg, -, hp, -⟩ := CompiledNetwork.ofDescription_eq_ok hn
  obtain ⟨plans, hplans, hp⟩ := Traced.result_bind_eq_ok.mp hp
  have hplans := Traced.result_mapM_eq_ok.mp hplans
  have hordered : plans.Pairwise fun a b => a.1.id < b.1.id := by
    have hids : n.graph.entries.map (·.1) = plans.map (·.1.id) :=
      map_eq_map_of_forall₂ hplans fun _ _ h =>
        (FirewallPlan.rulesOf_eq_ok (FirewallPlan.planOf_eq_ok h).1).1.symm
    rw [← List.pairwise_map (f := fun plan : MachineRules × List Redirect => plan.1.id), ← hids,
      Graph.map_fst_entries]
    exact List.pairwise_lt_range'
  have hplace : ∀ plan ∈ plans, ∀ d ∈ plan.2, ∀ i, IsAt n.graph d i → i = plan.1.id := by
    rintro plan hplan d hd i ⟨m', hm', hlabel⟩
    obtain ⟨⟨id, m⟩, hentry, hread⟩ := exists_of_mem_right hplans hplan
    obtain ⟨hrules, hredirects⟩ := FirewallPlan.planOf_eq_ok hread
    obtain ⟨target, rest, -, horigin⟩ := (FirewallPlan.mem_of_redirectsOf hredirects).mp hd
    have howner : d.owner = m.label := by
      cases horigin <;> rfl
    rw [(FirewallPlan.rulesOf_eq_ok hrules).1]
    exact Graph.id_unique hg hm' (Graph.mem_entries.mp hentry) (hlabel.trans howner)
  rw [← Except.ok.inj hp, List.pairwise_flatMap]
  constructor
  · intro plan hplan
    refine List.pairwise_iff_forall_sublist.mpr fun {d d'} hsub i j hi hj => ?_
    have hi := hplace plan hplan d (hsub.subset List.mem_cons_self) i hi
    have hj := hplace plan hplan d' (hsub.subset (List.mem_cons_of_mem _ List.mem_cons_self)) j hj
    exact Nat.le_of_eq (hi.trans hj.symm)
  · refine hordered.imp_of_mem fun {a b} ha hb hlt d hd d' hd' i j hi hj => ?_
    rw [hplace a ha d hd i hi, hplace b hb d' hd' j hj]
    exact Nat.le_of_lt hlt

/-- The redirections to one machine stand side by side. -/
theorem owner_of_between {before between after : List Redirect} {a b c : Redirect}
    (hsplit : n.firewall.redirects = before ++ a :: between ++ c :: after) (hb : b ∈ between)
    (howner : a.owner = c.owner) : b.owner = c.owner := by
  have hmem : ∀ d ∈ [a, b, c], d ∈ n.firewall.redirects := by
    rw [hsplit]
    simp [hb]
  obtain ⟨i, -, hi, -⟩ := exists_isAt hn (hmem a (by simp))
  obtain ⟨j, -, hj, -⟩ := exists_isAt hn (hmem b (by simp))
  obtain ⟨k, -, hk, -⟩ := exists_isAt hn (hmem c (by simp))
  obtain ⟨hleft, -, hbefore⟩ := List.pairwise_append.mp (hsplit ▸ pairwise_isAt hn)
  obtain ⟨-, hleft, -⟩ := List.pairwise_append.mp hleft
  have hij : i ≤ j := (List.pairwise_cons.mp hleft).1 b hb i j hi hj
  have hjk : j ≤ k := hbefore b (by simp [hb]) c List.mem_cons_self j k hj hk
  have hik : i = k := hi.unique hn howner hk
  obtain rfl : j = k := Nat.le_antisymm hjk (hik ▸ hij)
  obtain ⟨m, hm, hlabel⟩ := hj
  obtain ⟨m', hm', hlabel'⟩ := hk
  obtain rfl := Option.some.inj (hm.symm.trans hm')
  exact hlabel.symm.trans hlabel'

end Owners

/-! ## Effective redirections -/

/-- A redirection takes what meets it exactly if no redirection to another machine in front of it
contends for a packet. -/
theorem effective_iff {name : String} {description : Description} {s : Settings}
    {n : CompiledNetwork}
    (hn : (CompiledNetwork.ofDescription name description s).result = .ok n) (hs : s.Valid)
    (hosts : String → Address → Bool) {before after : List Redirect} {x : Redirect}
    (hsplit : n.firewall.redirects = before ++ x :: after) :
    (∀ k, IsMetBy hosts n.firewall x k →
        (natTable n.firewall).verdict hosts k "PREROUTING" = some (.redirect x.target)) ↔
      ∀ y ∈ before, y.owner ≠ x.owner → ¬Contends hosts y x := by
  have hmem : ∀ y ∈ before ++ [x], y ∈ n.firewall.redirects := by
    intro y hy
    rw [hsplit]
    rw [List.append_cons]
    exact List.mem_append_left _ hy
  have hx : x ∈ n.firewall.redirects := hmem x (by simp)
  constructor
  · intro heffective y hy howner hcontends
    obtain ⟨k, hyk, hxk⟩ := (contends_iff (p := n.firewall)).mp hcontends
    rcases verdict_of_split hsplit hxk with ⟨-, hnone⟩ | ⟨first, z, between, rfl, -, hfirst, hv⟩
    · exact hnone y hy hyk
    · have htarget : z.target = x.target := by
        simpa using hv.symm.trans (heffective k hxk)
      have hz := (owner_eq_iff_target_eq hn hs (hmem z (by simp)) hx).mpr htarget
      rcases List.mem_append.mp hy with hy | hy
      · exact hfirst y hy hyk
      · rcases List.mem_cons.mp hy with rfl | hy
        · exact howner hz
        · exact howner (owner_of_between hn hsplit hy hz)
  · intro hapart k hxk
    rcases verdict_of_split hsplit hxk with ⟨hv, -⟩ | ⟨first, z, between, rfl, hzk, -, hv⟩
    · exact hv
    · have hz : z.owner = x.owner := by
        by_contra howner
        exact hapart z (by simp) howner (contends_iff.mpr ⟨k, hzk, hxk⟩)
      rw [hv, (owner_eq_iff_target_eq hn hs (hmem z (by simp)) hx).mp hz]

/-- A router and two servers with one outer address. The first listens on some ports, the second on
a TCP port. -/
def sharedLab (first : FirewallEntry) : Description where
  servers := [
    ("alpha", { types := ["dedicated"],
                firewall := { first with externalIp := some "203.0.113.7" },
                lan := [("lan0", { mac := some "02:00:00:00:00:01" })] }),
    ("beta", { types := ["dedicated"],
               firewall := { listenTcp := [443], externalIp := some "203.0.113.7" },
               lan := [("lan0", { mac := some "02:00:00:00:00:02" })] }),
    ("router", { types := ["router"], wan := [("eth1", {})], lan := [("eth0", {})] })]

/-- A packet from outside for that address and that port. -/
def sharedPacket : Packet where
  source := .ofOctets 198 51 100 1
  destination := .ofOctets 203 0 113 7
  payload := .transport .tcp 443
  arrival := "eth1"
  departure := ""
  established := false
  aboveLimit := false

/-- What the first of the two servers listens on, and the ports that are redirected to it. -/
def sharedEntries : List (FirewallEntry × PortSet) :=
  [({ listenTcp := [80] }, ⟨[80]⟩), ({ listenTcp := [443] }, ⟨[443]⟩),
    ({ listenUdp := [53] }, .any)]

/-- The redirection of the outer address to a server. -/
def sharedRedirect (owner : String) (ports : PortSet) (target : Address) : Redirect where
  owner := owner
  protocol := .tcp
  destinations := [.net (Block.single (.ofOctets 203 0 113 7))]
  ports := ports
  target := target
  fromOutside := true

theorem redirects_sharedLab {first : FirewallEntry} {ports : PortSet}
    (h : (first, ports) ∈ sharedEntries) :
    ∃ n, (CompiledNetwork.ofDescription "lab" (sharedLab first) .default).result = .ok n ∧
      n.firewall.redirects =
        [sharedRedirect "alpha" ports (.ofOctets 10 10 0 2)] ++
          sharedRedirect "beta" ⟨[443]⟩ (.ofOctets 10 10 0 3) :: [] ∧
      n.firewall.wanInterfaces = ["eth1"] := by
  have hlab : ∀ e ∈ sharedEntries,
      ((CompiledNetwork.ofDescription "lab" (sharedLab e.1) .default).result).map (fun n =>
        (n.firewall.redirects, n.firewall.wanInterfaces)) =
      .ok ([sharedRedirect "alpha" e.2 (.ofOctets 10 10 0 2),
        sharedRedirect "beta" ⟨[443]⟩ (.ofOctets 10 10 0 3)], ["eth1"]) := by
    decide +kernel
  obtain ⟨n, hn, hlab⟩ := map_eq_ok.mp (hlab _ h)
  obtain ⟨hredirects, hwan⟩ := Prod.mk.inj hlab
  exact ⟨n, hn, hredirects, hwan⟩

theorem isMetBy_shared (hosts : String → Address → Bool) {p : FirewallPlan}
    (hwan : p.wanInterfaces = ["eth1"]) {owner : String} {ports : PortSet} {target : Address}
    (hports : ports.covers 443 = true) :
    IsMetBy hosts p (sharedRedirect owner ports target) sharedPacket := by
  have hcovers :
      (Block.single (.ofOctets 203 0 113 7)).contains sharedPacket.destination = true := by
    decide
  constructor
  · intro _
    rw [hwan]
    exact Or.inl List.mem_cons_self
  · exact ⟨_, List.mem_cons_self, hcovers⟩
  · exact ⟨443, rfl, hports⟩

theorem shadowed_of_mem_sharedEntries {first : FirewallEntry} {ports : PortSet}
    (hfirst : (first, ports) ∈ sharedEntries) (hports : ports.covers 443 = true) :
    ∃ n, (CompiledNetwork.ofDescription "lab" (sharedLab first) .default).result = .ok n ∧
      ∃ x ∈ n.firewall.redirects, x.owner = "beta" ∧ x.target = .ofOctets 10 10 0 3 ∧
        sharedPacket.arrival ∈ n.firewall.wanInterfaces ∧
        ∀ hosts : String → Address → Bool, IsMetBy hosts n.firewall x sharedPacket ∧
          (natTable n.firewall).verdict hosts sharedPacket "PREROUTING" =
            some (.redirect (.ofOctets 10 10 0 2)) := by
  obtain ⟨n, hn, hredirects, hwan⟩ := redirects_sharedLab hfirst
  refine ⟨n, hn, sharedRedirect "beta" ⟨[443]⟩ (.ofOctets 10 10 0 3), by simp [hredirects],
    rfl, rfl, by simp [hwan, sharedPacket], fun hosts => ⟨isMetBy_shared hosts hwan (by decide), ?_⟩⟩
  have hsplit : n.firewall.redirects =
      [] ++ sharedRedirect "alpha" ports (.ofOctets 10 10 0 2) :: _ := hredirects
  rcases verdict_of_split hsplit (isMetBy_shared hosts hwan hports) with
    ⟨hv, -⟩ | ⟨before, _, _, hnil, -⟩
  · exact hv
  · cases before <;> cases hnil

end Firewall

end NetworkCompiler
