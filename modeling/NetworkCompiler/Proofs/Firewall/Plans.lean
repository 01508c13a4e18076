import NetworkCompiler.Network.Compiled
import NetworkCompiler.Proofs.Lists
import NetworkCompiler.Proofs.Network.Graphs

/-!
# Plans of compiled networks

A firewall plan has the rules of every machine of its graph (`rulesOf_eq_ok`), in the order of the
machines. So the labels in the plan of a described network are distinct, and with them the chains
(`FirewallPlan.IsNamed`).

A firewall plan that was built has resolved every name that its rules mention
(`FirewallPlan.resolves_of_ofTopology`) : no rule but a redirection is left out before its names
are resolved. The redirections of a machine without an address are not looked at, so nothing is
said about them.

Every rule of a plan comes from a rule of its machine (`ResolvedRule.IsFrom`), with the same
protocol and ports and with its ends resolved, and every redirection comes from a declared one or
from the outer address of its machine (`Redirect.IsFrom`). `exists_of_mem_machines` and
`mem_redirects_iff` find the machine in the graph.
-/

namespace NetworkCompiler

open Ipv4 (Address)

variable {g : Graph} {t : Topology}

/-- The rules of a machine carry its place, its label, its chains, its addresses and whether it is
throttled. -/
theorem FirewallPlan.rulesOf_eq_ok {id : MachineId} {m : Machine} {r : MachineRules}
    (h : (rulesOf g t id m).result = .ok r) :
    r.id = id ∧ r.label = m.label ∧ r.chains = .ofLabel m.label ∧
      r.addresses = t.addressesOf id ∧ r.throttled = m.throttled := by
  obtain ⟨listen, -, h⟩ := Traced.result_bind_eq_ok.mp h
  obtain ⟨ingress, -, h⟩ := Traced.result_bind_eq_ok.mp h
  obtain ⟨forward, -, h⟩ := Traced.result_bind_eq_ok.mp h
  obtain ⟨egress, -, h⟩ := Traced.result_bind_eq_ok.mp h
  cases h
  exact ⟨rfl, rfl, rfl, rfl, rfl⟩

theorem FirewallPlan.planOf_eq_ok {id : MachineId} {m : Machine} {r : MachineRules}
    {redirects : List Redirect} (h : (planOf g t id m).result = .ok (r, redirects)) :
    (rulesOf g t id m).result = .ok r ∧ (redirectsOf g t id m).result = .ok redirects := by
  obtain ⟨rules, hrules, h⟩ := Traced.result_bind_eq_ok.mp h
  obtain ⟨found, hfound, h⟩ := Traced.result_bind_eq_ok.mp h
  obtain ⟨-, -, h⟩ := Traced.result_bind_eq_ok.mp h
  cases h
  exact ⟨hrules, hfound⟩

/-- A plan has the rules of every machine, in the order of the machines. -/
theorem FirewallPlan.ofTopology_eq_ok {p : FirewallPlan}
    (h : (FirewallPlan.ofTopology g t).result = .ok p) :
    p.router = t.router ∧
      List.Forall₂ (fun e r => (rulesOf g t e.1 e.2).result = .ok r) g.entries p.machines := by
  obtain ⟨plans, hplans, h⟩ := Traced.result_bind_eq_ok.mp h
  cases h
  refine ⟨rfl, List.forall₂_map_right_iff.mpr ?_⟩
  exact (Traced.result_mapM_eq_ok.mp hplans).imp fun _ _ h => (planOf_eq_ok h).1

/-- The labels of a plan are distinct, and the chains are those of the labels. -/
structure FirewallPlan.IsNamed (p : FirewallPlan) : Prop where
  nodup_labels : (p.machines.map (·.label)).Nodup
  chains_eq : ∀ m ∈ p.machines, m.chains = .ofLabel m.label

theorem FirewallPlan.isNamed_of_ofTopology {p : FirewallPlan}
    (hlabels : (g.machines.map (·.label)).Nodup)
    (h : (FirewallPlan.ofTopology g t).result = .ok p) : p.IsNamed := by
  obtain ⟨-, hmachines⟩ := ofTopology_eq_ok h
  have hrules := hmachines.imp fun _ _ h => rulesOf_eq_ok h
  constructor
  · have hmap : g.entries.map (·.2.label) = p.machines.map (·.label) := by
      rw [← List.forall₂_eq_eq_eq, List.forall₂_map_left_iff, List.forall₂_map_right_iff]
      exact hrules.imp fun _ _ h => h.2.1.symm
    rw [← hmap, g.map_entries (·.label)]
    exact hlabels
  · intro m hm
    obtain ⟨e, -, -, hlabel, hchains, -⟩ := exists_of_mem_right hrules hm
    rw [hchains, hlabel]

/-- The parts of a compiled network come one from the other. -/
theorem CompiledNetwork.ofDescription_eq_ok {name : String} {d : Description} {s : Settings}
    {n : CompiledNetwork} (h : (CompiledNetwork.ofDescription name d s).result = .ok n) :
    Graph.ofDescription name d s = .ok n.graph ∧
      (Topology.ofGraph n.graph s).result = .ok n.topology ∧
      (FirewallPlan.ofTopology n.graph n.topology).result = .ok n.firewall ∧ n.settings = s := by
  obtain ⟨g, hg, h⟩ := Traced.result_bind_eq_ok.mp h
  obtain ⟨t, ht, h⟩ := Traced.result_bind_eq_ok.mp h
  obtain ⟨p, hp, h⟩ := Traced.result_bind_eq_ok.mp h
  obtain ⟨-, -, h⟩ := Traced.result_bind_eq_ok.mp h
  cases h
  obtain ⟨g', hg', hg⟩ := Traced.result_bind_eq_ok.mp hg
  obtain ⟨-, -, hg⟩ := Traced.result_bind_eq_ok.mp hg
  cases hg
  exact ⟨hg', ht, Traced.result_mapError_eq_ok.mp hp, rfl⟩

theorem CompiledNetwork.isNamed {name : String} {d : Description} {s : Settings}
    {n : CompiledNetwork} (h : (CompiledNetwork.ofDescription name d s).result = .ok n) :
    n.firewall.IsNamed := by
  obtain ⟨hg, -, hp, -⟩ := ofDescription_eq_ok h
  exact FirewallPlan.isNamed_of_ofTopology (Graph.nodup_labels hg) hp

/-! ## Resolved names -/

namespace FirewallPlan

variable {label field : String}

/-- Every name that some rules mention stands for something. -/
def Resolves (g : Graph) (rules : List TrafficRule) : Prop :=
  ∀ r ∈ rules, ∀ name, name = r.source ∨ name ∈ r.destinations →
    Target.ofText g name ≠ .unknown

theorem ne_unknown_of_endpointsOf {target : String} {es : List Endpoint}
    (h : endpointsOf g t label field target = .ok es) : Target.ofText g target ≠ .unknown := by
  intro hunknown
  rw [endpointsOf, hunknown] at h
  cases h

theorem ne_unknown_of_endpoints {targets : List String} {es : List Endpoint}
    (h : endpoints g t label field targets = .ok es) :
    ∀ target ∈ targets, Target.ofText g target ≠ .unknown := by
  intro target htarget
  obtain ⟨found, hfound, -⟩ := bind_eq_ok.mp h
  obtain ⟨_, -, hread⟩ := exists_of_mem_left (mapM_eq_ok.mp hfound) htarget
  exact ne_unknown_of_endpointsOf hread

theorem ne_unknown_of_resolve? {r : TrafficRule} {resolved : Option ResolvedRule}
    (h : resolve? g t label field r = .ok resolved) {name : String}
    (hname : name = r.source ∨ name ∈ r.destinations) : Target.ofText g name ≠ .unknown := by
  obtain ⟨sources, hsources, h⟩ := bind_eq_ok.mp h
  obtain ⟨destinations, hdestinations, -⟩ := bind_eq_ok.mp h
  rcases hname with rfl | hname
  · exact ne_unknown_of_endpoints hsources _ (List.mem_singleton_self _)
  · exact ne_unknown_of_endpoints hdestinations _ hname

theorem resolves_of_resolveAll {rules : List TrafficRule} {resolved : List ResolvedRule}
    (h : (resolveAll g t label field rules).result = .ok resolved) : Resolves g rules := by
  induction rules generalizing resolved with
  | nil => simp [Resolves]
  | cons r rules ih =>
    rw [resolveAll] at h
    obtain ⟨found, hfound, h⟩ := Traced.result_bind_eq_ok.mp h
    have hrest : ∃ rest, (resolveAll g t label field rules).result = .ok rest := by
      cases found with
      | some x =>
        obtain ⟨rest, hrest, -⟩ := Traced.result_bind_eq_ok.mp h
        exact ⟨rest, hrest⟩
      | none =>
        obtain ⟨-, -, hrest⟩ := Traced.result_bind_eq_ok.mp h
        exact ⟨resolved, hrest⟩
    obtain ⟨rest, hrest⟩ := hrest
    exact List.forall_mem_cons.mpr ⟨fun _ => ne_unknown_of_resolve? hfound, ih hrest⟩

theorem resolves_of_redirectsOf {id : MachineId} {m : Machine} {redirects : List Redirect}
    (h : (redirectsOf g t id m).result = .ok redirects) (haddresses : t.addressesOf id ≠ []) :
    ∀ r ∈ m.dnat, ∀ name ∈ r.destinations, Target.ofText g name ≠ .unknown := by
  unfold redirectsOf at h
  split at h
  · obtain ⟨declared, hdeclared, -⟩ := Traced.result_bind_eq_ok.mp h
    intro r hr name hname
    obtain ⟨_, -, hread⟩ := exists_of_mem_left (mapM_eq_ok.mp hdeclared) hr
    obtain ⟨destinations, hdestinations, -⟩ := bind_eq_ok.mp hread
    exact ne_unknown_of_endpoints hdestinations name hname
  · next hnone => exact absurd hnone haddresses

/-- The names that a machine mentions, if the plan of its network could be built. -/
structure HasResolved (g : Graph) (t : Topology) (id : MachineId) (m : Machine) : Prop where
  ingress : Resolves g m.ingress
  forward : Resolves g m.forward
  egress : Resolves g m.egress
  dnat : t.addressesOf id ≠ [] →
    ∀ r ∈ m.dnat, ∀ name ∈ r.destinations, Target.ofText g name ≠ .unknown

theorem hasResolved_of_ofTopology {p : FirewallPlan} (h : (ofTopology g t).result = .ok p)
    {id : MachineId} {m : Machine} (hm : g.machine? id = some m) : HasResolved g t id m := by
  obtain ⟨plans, hplans, -⟩ := Traced.result_bind_eq_ok.mp h
  obtain ⟨⟨rules, redirects⟩, -, hplan⟩ :=
    exists_of_mem_left (Traced.result_mapM_eq_ok.mp hplans) (Graph.mem_entries.mpr hm)
  obtain ⟨hrules, hredirects⟩ := planOf_eq_ok hplan
  obtain ⟨listen, -, hrules⟩ := Traced.result_bind_eq_ok.mp hrules
  obtain ⟨ingress, hingress, hrules⟩ := Traced.result_bind_eq_ok.mp hrules
  obtain ⟨forward, hforward, hrules⟩ := Traced.result_bind_eq_ok.mp hrules
  obtain ⟨egress, hegress, -⟩ := Traced.result_bind_eq_ok.mp hrules
  exact ⟨resolves_of_resolveAll hingress, resolves_of_resolveAll hforward,
    resolves_of_resolveAll hegress, resolves_of_redirectsOf hredirects⟩

end FirewallPlan

/-! ## Origins -/

/-- A resolved rule that was made from a rule of a machine. -/
structure ResolvedRule.IsFrom (x : ResolvedRule) (g : Graph) (t : Topology) (label field : String)
    (r : TrafficRule) : Prop where
  protocol_eq : x.protocol = r.protocol
  ports_eq : x.ports = r.ports
  sources : FirewallPlan.endpoints g t label field [r.source] = .ok x.sources
  destinations : FirewallPlan.endpoints g t label field r.destinations = .ok x.destinations

/-- A redirection to an address of a machine that was made from what the machine asks for. -/
inductive Redirect.IsFrom (g : Graph) (t : Topology) (m : Machine) (target : Address) :
    Redirect → Prop where
  | declared {r : TrafficRule} {destinations : List Endpoint} (hr : r ∈ m.dnat)
      (hdestinations : FirewallPlan.endpoints g t m.label "firewall.dnat_to" r.destinations =
        .ok destinations) :
      IsFrom g t m target ⟨m.label, r.protocol, destinations, r.ports, target, false⟩
  | outer {external : Address} (hexternal : m.externalIp = some external) :
      IsFrom g t m target (FirewallPlan.externalRedirect m target external)

namespace FirewallPlan

/-! ### One machine -/

theorem resolve?_eq_some {label field : String} {r : TrafficRule} {x : ResolvedRule}
    (h : resolve? g t label field r = .ok (some x)) : x.IsFrom g t label field r := by
  obtain ⟨sources, hsources, h⟩ := bind_eq_ok.mp h
  obtain ⟨destinations, hdestinations, h⟩ := bind_eq_ok.mp h
  split at h
  · cases h
  · cases h
    exact ⟨rfl, rfl, hsources, hdestinations⟩

/-- Resolved rules come from the rules that were resolved. -/
theorem exists_isFrom_of_mem {label field : String} {rules : List TrafficRule}
    {resolved : List ResolvedRule}
    (h : (resolveAll g t label field rules).result = .ok resolved) {x : ResolvedRule}
    (hx : x ∈ resolved) : ∃ r ∈ rules, x.IsFrom g t label field r := by
  induction rules generalizing resolved with
  | nil =>
    cases h
    cases hx
  | cons r rules ih =>
    rw [resolveAll] at h
    obtain ⟨found, hfound, h⟩ := Traced.result_bind_eq_ok.mp h
    cases found with
    | some y =>
      obtain ⟨rest, hrest, h⟩ := Traced.result_bind_eq_ok.mp h
      cases h
      rcases List.mem_cons.mp hx with rfl | hx
      · exact ⟨r, List.mem_cons_self, resolve?_eq_some hfound⟩
      · obtain ⟨r', hr', hfrom⟩ := ih hrest hx
        exact ⟨r', List.mem_cons_of_mem _ hr', hfrom⟩
    | none =>
      obtain ⟨-, -, hrest⟩ := Traced.result_bind_eq_ok.mp h
      obtain ⟨r', hr', hfrom⟩ := ih hrest hx
      exact ⟨r', List.mem_cons_of_mem _ hr', hfrom⟩

/-- The rules of a machine in a plan come from those of the machine in the graph, field by field. -/
structure IsPlanOf (g : Graph) (t : Topology) (m : Machine) (w : MachineRules) : Prop where
  listen : ∀ x ∈ w.listen, ∃ r ∈ m.listen, x.IsFrom g t m.label "firewall.listen" r
  ingress : ∀ x ∈ w.ingress, ∃ r ∈ m.ingress,
    x.IsFrom g t m.label "firewall.allow_ingress_from" r
  forward : ∀ x ∈ w.forward, ∃ r ∈ m.forward, x.IsFrom g t m.label "firewall.allow_forward_to" r
  egress : ∀ x ∈ w.egress, ∃ r ∈ m.egress, x.IsFrom g t m.label "firewall.allow_egress_to" r

theorem isPlanOf_of_rulesOf {id : MachineId} {m : Machine} {w : MachineRules}
    (h : (rulesOf g t id m).result = .ok w) : IsPlanOf g t m w := by
  obtain ⟨listen, hlisten, h⟩ := Traced.result_bind_eq_ok.mp h
  obtain ⟨ingress, hingress, h⟩ := Traced.result_bind_eq_ok.mp h
  obtain ⟨forward, hforward, h⟩ := Traced.result_bind_eq_ok.mp h
  obtain ⟨egress, hegress, h⟩ := Traced.result_bind_eq_ok.mp h
  cases h
  constructor
  · intro x hx
    exact exists_isFrom_of_mem hlisten hx
  · intro x hx
    exact exists_isFrom_of_mem hingress hx
  · intro x hx
    exact exists_isFrom_of_mem hforward hx
  · intro x hx
    exact exists_isFrom_of_mem hegress hx

theorem IsPlanOf.exists_isFrom {m : Machine} {w : MachineRules} (h : IsPlanOf g t m w)
    {x : ResolvedRule} (hx : x ∈ w.towards ++ (w.forward ++ w.egress)) :
    ∃ r ∈ m.rules, ∃ field, x.IsFrom g t m.label field r := by
  simp only [MachineRules.towards, List.mem_append] at hx
  simp only [Machine.rules, List.mem_append]
  rcases hx with (hx | hx) | hx | hx
  · obtain ⟨r, hr, hfrom⟩ := h.listen x hx
    exact ⟨r, by simp [hr], _, hfrom⟩
  · obtain ⟨r, hr, hfrom⟩ := h.ingress x hx
    exact ⟨r, by simp [hr], _, hfrom⟩
  · obtain ⟨r, hr, hfrom⟩ := h.forward x hx
    exact ⟨r, by simp [hr], _, hfrom⟩
  · obtain ⟨r, hr, hfrom⟩ := h.egress x hx
    exact ⟨r, by simp [hr], _, hfrom⟩

/-- The redirections to a machine go to its first address, and there are none without one. -/
theorem mem_of_redirectsOf {id : MachineId} {m : Machine} {redirects : List Redirect}
    (h : (redirectsOf g t id m).result = .ok redirects) {x : Redirect} :
    x ∈ redirects ↔
      ∃ target rest, t.addressesOf id = target :: rest ∧ x.IsFrom g t m target := by
  unfold redirectsOf at h
  split at h
  · next target rest haddresses =>
    obtain ⟨declared, hdeclared, h⟩ := Traced.result_bind_eq_ok.mp h
    cases h
    have hall := mapM_eq_ok.mp hdeclared
    rw [List.mem_append, List.mem_map, haddresses]
    constructor
    · rintro (hx | ⟨external, hexternal, rfl⟩)
      · obtain ⟨r, hr, hread⟩ := exists_of_mem_right hall hx
        obtain ⟨destinations, hdestinations, hread⟩ := bind_eq_ok.mp hread
        cases hread
        exact ⟨target, rest, rfl, .declared hr hdestinations⟩
      · exact ⟨target, rest, rfl, .outer (by simpa using hexternal)⟩
    · rintro ⟨_, _, heq, horigin⟩
      cases heq
      cases horigin with
      | declared hr hdestinations =>
        obtain ⟨y, hy, hread⟩ := exists_of_mem_left hall hr
        obtain ⟨_, hfound, hread⟩ := bind_eq_ok.mp hread
        cases hfound.symm.trans hdestinations
        cases hread
        exact Or.inl hy
      | outer hexternal => exact Or.inr ⟨_, by simp [hexternal], rfl⟩
  · next haddresses =>
    have hnil : redirects = [] := by
      split at h <;> cases h <;> rfl
    rw [hnil, haddresses]
    simp

/-! ### The whole plan -/

section Plan

variable {p : FirewallPlan} (h : (ofTopology g t).result = .ok p)
include h

/-- The rules of every machine of a plan come from a machine of the graph. -/
theorem exists_of_mem_machines {w : MachineRules} (hw : w ∈ p.machines) :
    ∃ m, g.machine? w.id = some m ∧ w.label = m.label ∧ w.addresses = t.addressesOf w.id ∧
      IsPlanOf g t m w := by
  obtain ⟨⟨id, m⟩, hentry, hrules⟩ := exists_of_mem_right (ofTopology_eq_ok h).2 hw
  obtain ⟨hid, hlabel, -, haddresses, -⟩ := rulesOf_eq_ok hrules
  refine ⟨m, ?_, hlabel, ?_, isPlanOf_of_rulesOf hrules⟩
  · rw [hid]
    exact Graph.mem_entries.mp hentry
  · rw [hid]
    exact haddresses

/-- Every machine of the graph has its rules in the plan. -/
theorem exists_mem_machines {id : MachineId} {m : Machine} (hm : g.machine? id = some m) :
    ∃ w ∈ p.machines, w.id = id ∧ w.label = m.label ∧ w.addresses = t.addressesOf id := by
  obtain ⟨w, hw, hrules⟩ := exists_of_mem_left (ofTopology_eq_ok h).2 (Graph.mem_entries.mpr hm)
  obtain ⟨hid, hlabel, -, haddresses, -⟩ := rulesOf_eq_ok hrules
  exact ⟨w, hw, hid, hlabel, haddresses⟩

/-- The redirections of a plan are those to its machines. -/
theorem mem_redirects_iff {x : Redirect} :
    x ∈ p.redirects ↔ ∃ id m target rest, g.machine? id = some m ∧
      t.addressesOf id = target :: rest ∧ x.IsFrom g t m target := by
  obtain ⟨plans, hplans, h⟩ := Traced.result_bind_eq_ok.mp h
  cases h
  have hall := Traced.result_mapM_eq_ok.mp hplans
  rw [List.mem_flatMap]
  constructor
  · rintro ⟨⟨w, redirects⟩, hplan, hx⟩
    obtain ⟨⟨id, m⟩, hentry, hread⟩ := exists_of_mem_right hall hplan
    obtain ⟨target, rest, haddresses, horigin⟩ :=
      (mem_of_redirectsOf (planOf_eq_ok hread).2).mp hx
    exact ⟨id, m, target, rest, Graph.mem_entries.mp hentry, haddresses, horigin⟩
  · rintro ⟨id, m, target, rest, hm, haddresses, horigin⟩
    obtain ⟨⟨w, redirects⟩, hplan, hread⟩ := exists_of_mem_left hall (Graph.mem_entries.mpr hm)
    exact ⟨_, hplan, (mem_of_redirectsOf (planOf_eq_ok hread).2).mpr
      ⟨target, rest, haddresses, horigin⟩⟩

end Plan

end FirewallPlan

end NetworkCompiler
