import NetworkCompiler.Proofs.Firewall.Plans
import NetworkCompiler.Proofs.Network.Consistency

/-!
# Resolution of names

What the names in a list of targets are resolved to. `StandsFor` says which ends a text stands for,
one class of texts after the other, and `Graph.IsUnknown` which texts stand for nothing. The ends of
targets are all that their texts stand for and no others, each once (`endpoints_eq_ok`); they are
found unless a text is unknown (`exists_endpoints_iff`).

A rule of a machine is kept exactly if both of its ends are left (`resolveAll_eq_ok_iff`). The
redirections are not treated like that : a machine with an address keeps all of them
(`KeepsRedirects`), also those that no destination is left for (`redirect_without_destination`).
-/

namespace NetworkCompiler

open Ipv4 (Address Block)

/-- An end that a text stands for. The mark for anywhere goes before labels, labels before
addresses, addresses before networks, and a text with a dot that is none of them is a host. -/
inductive StandsFor (g : Graph) (t : Topology) : String → Endpoint → Prop where
  | anywhere : StandsFor g t anywhere .any
  | gateway {s : String} {x : Subnet} : s ≠ anywhere → g.idOf? s = some t.router →
      x ∈ t.subnets → StandsFor g t s (.net (Block.single x.gateway))
  | assigned {s : String} {id : MachineId} {a : Assignment} : s ≠ anywhere →
      g.idOf? s = some id → id ≠ t.router → a ∈ t.assignments → a.machine = id →
      StandsFor g t s (.net (Block.single a.address))
  | address {s : String} {a : Address} : s ≠ anywhere → g.idOf? s = none →
      Address.ofText? s = some a → StandsFor g t s (.net (Block.single a))
  | block {s : String} {b : Block} : s ≠ anywhere → g.idOf? s = none →
      Address.ofText? s = none → Block.ofText? s = some b → StandsFor g t s (.net b)
  | host {s : String} : s ≠ anywhere → g.idOf? s = none → Address.ofText? s = none →
      Block.ofText? s = none → '.' ∈ s.toList → StandsFor g t s (.host s)

/-- A text that is no mark, no label, no address, no network and no host. -/
structure Graph.IsUnknown (g : Graph) (s : String) : Prop where
  not_anywhere : s ≠ anywhere
  not_label : g.idOf? s = none
  not_address : Address.ofText? s = none
  not_block : Block.ofText? s = none
  not_host : '.' ∉ s.toList

section Targets

variable {g : Graph} {t : Topology} {s : String} {e : Endpoint}

theorem mem_addressesOf {id : MachineId} {a : Address} : a ∈ t.addressesOf id ↔
    (id = t.router ∧ ∃ x ∈ t.subnets, x.gateway = a) ∨
      id ≠ t.router ∧ ∃ b ∈ t.assignments, b.machine = id ∧ b.address = a := by
  unfold Topology.addressesOf Topology.assignmentsOf
  split
  · next h => simp [h]
  · next h => simp [h, and_assoc]

/-- A label stands for the addresses of its machine. -/
theorem standsFor_label {id : MachineId} (hany : s ≠ anywhere) (hid : g.idOf? s = some id) :
    StandsFor g t s e ↔ ∃ a ∈ t.addressesOf id, e = .net (Block.single a) := by
  simp only [mem_addressesOf]
  constructor
  · rintro (_ | ⟨-, hid', hx⟩ | ⟨-, hid', hrouter, ha, hmachine⟩ | ⟨-, hnone, -⟩ | ⟨-, hnone, -⟩ |
      ⟨-, hnone, -⟩)
    · exact absurd rfl hany
    · cases hid.symm.trans hid'
      exact ⟨_, Or.inl ⟨rfl, _, hx, rfl⟩, rfl⟩
    · cases hid.symm.trans hid'
      exact ⟨_, Or.inr ⟨hrouter, _, ha, hmachine, rfl⟩, rfl⟩
    all_goals cases hid.symm.trans hnone
  · rintro ⟨_, ⟨rfl, x, hx, rfl⟩ | ⟨hrouter, b, hb, hmachine, rfl⟩, rfl⟩
    · exact .gateway hany hid hx
    · exact .assigned hany hid hrouter hb hmachine

theorem standsFor_any : StandsFor g t s .any ↔ s = anywhere := by
  constructor
  · rintro ⟨⟩
    rfl
  · rintro rfl
    exact .anywhere

theorem standsFor_address {a : Address} (hany : s ≠ anywhere) (hid : g.idOf? s = none)
    (ha : Address.ofText? s = some a) : StandsFor g t s e ↔ e = .net (Block.single a) := by
  refine ⟨fun h => ?_, fun h => h ▸ .address hany hid ha⟩
  cases h <;> simp_all

theorem standsFor_block {b : Block} (hany : s ≠ anywhere) (hid : g.idOf? s = none)
    (ha : Address.ofText? s = none) (hb : Block.ofText? s = some b) :
    StandsFor g t s e ↔ e = .net b := by
  refine ⟨fun h => ?_, fun h => h ▸ .block hany hid ha hb⟩
  cases h <;> simp_all

theorem standsFor_host (hany : s ≠ anywhere) (hid : g.idOf? s = none)
    (ha : Address.ofText? s = none) (hb : Block.ofText? s = none) (hdot : '.' ∈ s.toList) :
    StandsFor g t s e ↔ e = .host s := by
  refine ⟨fun h => ?_, fun h => h ▸ .host hany hid ha hb hdot⟩
  cases h <;> simp_all

theorem standsFor_anywhere : StandsFor g t anywhere e ↔ e = .any := by
  refine ⟨fun h => ?_, fun h => h ▸ .anywhere⟩
  cases h <;> simp_all

/-- Nothing is what a label without addresses stands for. -/
theorem not_standsFor {id : MachineId} (hany : s ≠ anywhere) (hid : g.idOf? s = some id)
    (hnone : t.addressesOf id = []) : ¬StandsFor g t s e := by
  rw [standsFor_label hany hid, hnone]
  simp

end Targets

namespace FirewallPlan

variable {g : Graph} {t : Topology} {label field : String} {targets : List String}

/-! ## Targets -/

/-- A target is resolved to what it stands for, or it is unknown. -/
theorem endpointsOf_cases (g : Graph) (t : Topology) (label field target : String) :
    (¬g.IsUnknown target ∧ ∃ es, endpointsOf g t label field target = .ok es ∧
        ∀ e, e ∈ es ↔ StandsFor g t target e) ∨
      g.IsUnknown target ∧
        endpointsOf g t label field target = .error (.unresolvedLabel label field target) := by
  unfold endpointsOf Target.ofText
  by_cases hany : target = anywhere
  · subst hany
    rw [if_pos rfl]
    exact Or.inl ⟨fun h => h.not_anywhere rfl, _, rfl, by simp [standsFor_anywhere]⟩
  rw [if_neg hany]
  cases hid : g.idOf? target with
  | some id =>
    refine Or.inl ⟨fun h => ?_, _, rfl, fun e => ?_⟩
    · cases hid.symm.trans h.not_label
    · simp [standsFor_label hany hid, eq_comm]
  | none =>
    cases ha : Address.ofText? target with
    | some a =>
      refine Or.inl ⟨fun h => ?_, _, rfl, fun e => ?_⟩
      · cases ha.symm.trans h.not_address
      · simp [standsFor_address hany hid ha]
    | none =>
      cases hb : Block.ofText? target with
      | some b =>
        refine Or.inl ⟨fun h => ?_, _, rfl, fun e => ?_⟩
        · cases hb.symm.trans h.not_block
        · simp [standsFor_block hany hid ha hb]
      | none =>
        by_cases hdot : '.' ∈ target.toList
        · simp only [if_pos hdot]
          exact Or.inl ⟨fun h => h.not_host hdot, _, rfl, by
            simp [standsFor_host hany hid ha hb hdot]⟩
        · simp only [if_neg hdot]
          exact Or.inr ⟨⟨hany, hid, ha, hb, hdot⟩, trivial⟩

theorem endpointsOf_eq_ok {target : String} {es : List Endpoint}
    (h : endpointsOf g t label field target = .ok es) :
    ¬g.IsUnknown target ∧ ∀ e, e ∈ es ↔ StandsFor g t target e := by
  rcases endpointsOf_cases g t label field target with ⟨hknown, found, hfound, hes⟩ | ⟨-, hfail⟩
  · cases hfound.symm.trans h
    exact ⟨hknown, hes⟩
  · cases hfail.symm.trans h

theorem endpointsOf_eq_error {target : String} {e : TopologyError}
    (h : endpointsOf g t label field target = .error e) :
    g.IsUnknown target ∧ e = .unresolvedLabel label field target := by
  rcases endpointsOf_cases g t label field target with ⟨-, found, hfound, -⟩ | ⟨hunknown, hfail⟩
  · cases hfound.symm.trans h
  · cases hfail.symm.trans h
    exact ⟨hunknown, rfl⟩

/-- The ends of targets are what the targets stand for, each once. -/
theorem endpoints_eq_ok {es : List Endpoint} (h : endpoints g t label field targets = .ok es) :
    es.Nodup ∧ (∀ target ∈ targets, ¬g.IsUnknown target) ∧
      ∀ e, e ∈ es ↔ ∃ target ∈ targets, StandsFor g t target e := by
  obtain ⟨found, hfound, h⟩ := bind_eq_ok.mp h
  cases h
  have hall := mapM_eq_ok.mp hfound
  refine ⟨nodup_eraseDups _, fun target htarget => ?_, fun e => ?_⟩
  · obtain ⟨_, -, hread⟩ := exists_of_mem_left hall htarget
    exact (endpointsOf_eq_ok hread).1
  rw [List.mem_eraseDups, List.mem_flatten]
  constructor
  · rintro ⟨piece, hpiece, he⟩
    obtain ⟨target, htarget, hread⟩ := exists_of_mem_right hall hpiece
    exact ⟨target, htarget, ((endpointsOf_eq_ok hread).2 e).mp he⟩
  · rintro ⟨target, htarget, he⟩
    obtain ⟨piece, hpiece, hread⟩ := exists_of_mem_left hall htarget
    exact ⟨piece, hpiece, ((endpointsOf_eq_ok hread).2 e).mpr he⟩

theorem endpoints_eq_error {e : TopologyError}
    (h : endpoints g t label field targets = .error e) :
    ∃ target ∈ targets, g.IsUnknown target ∧ e = .unresolvedLabel label field target := by
  rcases bind_eq_error.mp h with h | ⟨found, -, h⟩
  · obtain ⟨target, htarget, hread⟩ := exists_of_mapM_eq_error h
    exact ⟨target, htarget, endpointsOf_eq_error hread⟩
  · exact absurd h pure_ne_error

/-- Targets are resolved unless one of them is unknown. -/
theorem exists_endpoints_iff : (∃ es, endpoints g t label field targets = .ok es) ↔
    ∀ target ∈ targets, ¬g.IsUnknown target := by
  constructor
  · rintro ⟨es, h⟩
    exact (endpoints_eq_ok h).2.1
  · intro hknown
    cases h : endpoints g t label field targets with
    | ok es => exact ⟨es, rfl⟩
    | error e =>
      obtain ⟨target, htarget, hunknown, -⟩ := endpoints_eq_error h
      exact absurd hunknown (hknown target htarget)

end FirewallPlan

/-! ## Rules that are kept -/

/-- Both ends of a rule are left. -/
def ResolvedRule.hasEnds (x : ResolvedRule) : Bool :=
  !x.sources.isEmpty && !x.destinations.isEmpty

/-- The rules that are kept of those of a field : all are resolved, and the ones with both ends are
kept, in their order. -/
def KeepsRules (g : Graph) (t : Topology) (label field : String) (rules : List TrafficRule)
    (kept : List ResolvedRule) : Prop :=
  ∃ all, List.Forall₂ (fun r x => x.IsFrom g t label field r ∧ x.table = r.table) rules all ∧
    kept = all.filter ResolvedRule.hasEnds

/-- The redirections that are kept of those of a machine : none without an address, and otherwise
every declared one, whatever is left of its destinations, and the one of the outer address. -/
inductive KeepsRedirects (g : Graph) (t : Topology) (id : MachineId) (m : Machine) :
    List Redirect → Prop where
  | none : t.addressesOf id = [] → KeepsRedirects g t id m []
  | all {target : Address} {rest : List Address} {declared : List Redirect} :
      t.addressesOf id = target :: rest →
      List.Forall₂ (fun r x => ∃ es,
        FirewallPlan.endpoints g t m.label "firewall.dnat_to" r.destinations = .ok es ∧
          x = ⟨m.label, r.protocol, es, r.ports, target, false⟩) m.dnat declared →
      KeepsRedirects g t id m
        (declared ++ m.externalIp.toList.map (FirewallPlan.externalRedirect m target))

namespace FirewallPlan

variable {g : Graph} {t : Topology} {label field : String}

theorem pure_hasEnds (x : ResolvedRule) :
    (if x.sources.isEmpty || x.destinations.isEmpty then pure none
      else pure (some x) : Except TopologyError (Option ResolvedRule)) =
      .ok (if x.hasEnds then some x else none) := by
  rw [ResolvedRule.hasEnds, ← Bool.not_or]
  cases x.sources.isEmpty || x.destinations.isEmpty <;> rfl

theorem resolve?_eq_ok_iff {r : TrafficRule} {found : Option ResolvedRule} :
    resolve? g t label field r = .ok found ↔
      ∃ x : ResolvedRule, (x.IsFrom g t label field r ∧ x.table = r.table) ∧
        found = if x.hasEnds then some x else none := by
  constructor
  · intro h
    obtain ⟨sources, hsources, h⟩ := bind_eq_ok.mp h
    obtain ⟨destinations, hdestinations, h⟩ := bind_eq_ok.mp h
    have hends := pure_hasEnds ⟨r.protocol, r.table, sources, destinations, r.ports⟩
    exact ⟨_, ⟨⟨rfl, rfl, hsources, hdestinations⟩, rfl⟩, Except.ok.inj (h.symm.trans hends)⟩
  · rintro ⟨⟨_, _, sources, destinations, _⟩, ⟨⟨rfl, rfl, hsources, hdestinations⟩, rfl⟩, rfl⟩
    exact bind_eq_ok.mpr ⟨sources, hsources, bind_eq_ok.mpr ⟨destinations, hdestinations,
      pure_hasEnds ⟨r.protocol, r.table, sources, destinations, r.ports⟩⟩⟩

theorem resolveAll_cons_eq_ok {r : TrafficRule} {rules : List TrafficRule}
    {kept : List ResolvedRule} :
    (resolveAll g t label field (r :: rules)).result = .ok kept ↔
      ∃ found rest, resolve? g t label field r = .ok found ∧
        (resolveAll g t label field rules).result = .ok rest ∧ kept = found.toList ++ rest := by
  rw [resolveAll, Traced.result_bind_eq_ok]
  constructor
  · rintro ⟨found, hfound, h⟩
    cases found with
    | some x =>
      obtain ⟨rest, hrest, h⟩ := Traced.result_bind_eq_ok.mp h
      cases h
      exact ⟨some x, rest, hfound, hrest, rfl⟩
    | none =>
      obtain ⟨-, -, hrest⟩ := Traced.result_bind_eq_ok.mp h
      exact ⟨none, kept, hfound, hrest, rfl⟩
  · rintro ⟨found, rest, hfound, hrest, rfl⟩
    refine ⟨found, hfound, ?_⟩
    cases found with
    | some x => exact Traced.result_bind_eq_ok.mpr ⟨rest, hrest, rfl⟩
    | none => exact Traced.result_bind_eq_ok.mpr ⟨(), rfl, hrest⟩

/-- Of the rules of a field exactly those with both ends are kept. -/
theorem resolveAll_eq_ok_iff {rules : List TrafficRule} {kept : List ResolvedRule} :
    (resolveAll g t label field rules).result = .ok kept ↔
      KeepsRules g t label field rules kept := by
  induction rules generalizing kept with
  | nil =>
    constructor
    · intro h
      cases h
      exact ⟨[], .nil, rfl⟩
    · rintro ⟨_, ⟨⟩, rfl⟩
      rfl
  | cons r rules ih =>
    have hkept : ∀ (x : ResolvedRule) all, (x :: all).filter ResolvedRule.hasEnds =
        (if x.hasEnds then some x else none).toList ++ all.filter ResolvedRule.hasEnds :=
      fun x all => by cases hx : x.hasEnds <;> simp [hx]
    rw [resolveAll_cons_eq_ok]
    constructor
    · rintro ⟨found, rest, hfound, hrest, rfl⟩
      obtain ⟨x, hx, rfl⟩ := resolve?_eq_ok_iff.mp hfound
      obtain ⟨all, hall, rfl⟩ := ih.mp hrest
      exact ⟨x :: all, .cons hx hall, (hkept x all).symm⟩
    · rintro ⟨_, _ | ⟨hx, hall⟩, rfl⟩
      exact ⟨_, _, resolve?_eq_ok_iff.mpr ⟨_, hx, rfl⟩, ih.mpr ⟨_, hall, rfl⟩, hkept _ _⟩

/-- The redirections of a machine. -/
theorem keepsRedirects_of_redirectsOf {id : MachineId} {m : Machine} {redirects : List Redirect}
    (h : (redirectsOf g t id m).result = .ok redirects) : KeepsRedirects g t id m redirects := by
  unfold redirectsOf at h
  split at h
  · next target rest haddresses =>
    obtain ⟨declared, hdeclared, h⟩ := Traced.result_bind_eq_ok.mp h
    cases h
    refine .all haddresses ((mapM_eq_ok.mp hdeclared).imp fun r x hread => ?_)
    obtain ⟨es, hes, hread⟩ := bind_eq_ok.mp hread
    exact ⟨es, hes, (Except.ok.inj hread).symm⟩
  · next haddresses =>
    have hnil : redirects = [] := by
      split at h <;> cases h <;> rfl
    exact hnil ▸ .none haddresses

/-- The four lists of rules of a machine. -/
structure KeepsAll (g : Graph) (t : Topology) (m : Machine) (w : MachineRules) : Prop where
  listen : KeepsRules g t m.label "firewall.listen" m.listen w.listen
  ingress : KeepsRules g t m.label "firewall.allow_ingress_from" m.ingress w.ingress
  forward : KeepsRules g t m.label "firewall.allow_forward_to" m.forward w.forward
  egress : KeepsRules g t m.label "firewall.allow_egress_to" m.egress w.egress

theorem keepsAll_of_rulesOf {id : MachineId} {m : Machine} {w : MachineRules}
    (h : (rulesOf g t id m).result = .ok w) : KeepsAll g t m w := by
  obtain ⟨listen, hlisten, h⟩ := Traced.result_bind_eq_ok.mp h
  obtain ⟨ingress, hingress, h⟩ := Traced.result_bind_eq_ok.mp h
  obtain ⟨forward, hforward, h⟩ := Traced.result_bind_eq_ok.mp h
  obtain ⟨egress, hegress, h⟩ := Traced.result_bind_eq_ok.mp h
  cases h
  exact ⟨resolveAll_eq_ok_iff.mp hlisten, resolveAll_eq_ok_iff.mp hingress,
    resolveAll_eq_ok_iff.mp hforward, resolveAll_eq_ok_iff.mp hegress⟩

/-- A plan keeps the rules and the redirections of every machine, in the order of the machines. -/
theorem keeps_of_ofTopology {p : FirewallPlan} (h : (ofTopology g t).result = .ok p) :
    List.Forall₂ (fun e w => KeepsAll g t e.2 w) g.entries p.machines ∧
      ∃ parts, List.Forall₂ (fun e part => KeepsRedirects g t e.1 e.2 part) g.entries parts ∧
        p.redirects = parts.flatten := by
  obtain ⟨plans, hplans, h⟩ := Traced.result_bind_eq_ok.mp h
  cases h
  have hall := Traced.result_mapM_eq_ok.mp hplans
  refine ⟨List.forall₂_map_right_iff.mpr (hall.imp fun e plan hplan => ?_), plans.map (·.2),
    List.forall₂_map_right_iff.mpr (hall.imp fun e plan hplan => ?_), List.flatMap_def ..⟩
  · exact keepsAll_of_rulesOf (planOf_eq_ok hplan).1
  · exact keepsRedirects_of_redirectsOf (planOf_eq_ok hplan).2

end FirewallPlan

/-! ## Described networks -/

theorem source_of_dnatRules {label : String} {ports : PortSet} {targets : List String}
    {rules : List TrafficRule} (h : dnatRules label ports targets = .ok rules) :
    ∀ r ∈ rules, r.source = label := by
  unfold dnatRules at h
  split at h
  · cases h
    simp
  split at h
  · cases h
  · obtain ⟨names, -, h⟩ := bind_eq_ok.mp h
    cases h
    simp [TrafficRule.withPorts]

/-- A machine whose entry asks for nothing declares no redirection. -/
theorem Machine.CarriesPorts.dnat_eq_nil {m : Machine} (h : m.CarriesPorts {}) : m.dnat = [] := by
  refine List.eq_nil_iff_forall_not_mem.mpr fun r hr => ?_
  obtain ⟨-, hports, hany⟩ := h.dnat r hr
  rw [hports, h.listens.mpr rfl] at hany
  cases hany

section Described

variable {name : String} {d : Description} {s : Settings} {g : Graph}
variable (hg : Graph.ofDescription name d s = .ok g)
include hg

/-- The source of a declared redirection is the machine itself. -/
theorem Graph.source_of_dnat {m : Machine} (hm : m ∈ g.machines) :
    ∀ r ∈ m.dnat, r.source = m.label := by
  obtain ⟨ms, n, rfl, hn⟩ := exists_isReadFrom hg hm
  obtain ⟨more, hmore⟩ := exists_grantAccess_eq ms n
  rw [hmore]
  change ∀ r ∈ n.dnat, r.source = n.label
  cases hn with
  | server _ hread =>
    obtain ⟨w, -, -, -, -, lan, wan, -, -, hfirewall⟩ := Machine.exists_steps_of_ofServer hread
    obtain ⟨_, _, _, _, _, _, rfl, ⟨_, -, hdnat⟩, -⟩ :=
      Machine.exists_rules_of_withFirewall hfirewall
    exact source_of_dnatRules hdnat
  | device _ hread => simp [(Machine.carriesPorts_of_ofDevice hread).dnat_eq_nil]
  | user hread => simp [(Machine.carriesPorts_of_ofUser hread).dnat_eq_nil]

/-- The labels of machines are resolved, and stand for the addresses of their machines. -/
theorem exists_endpoints_of_labels (t : Topology) (label field : String) (labels : List String)
    (hlabels : ∀ l ∈ labels, ∃ m ∈ g.machines, m.label = l) :
    ∃ es, FirewallPlan.endpoints g t label field labels = .ok es ∧ es.Nodup ∧
      ∀ e, e ∈ es ↔ ∃ l ∈ labels, ∃ id, g.idOf? l = some id ∧
        ∃ a ∈ t.addressesOf id, e = .net (Block.single a) := by
  have hany : ∀ l ∈ labels, l ≠ anywhere := fun l hl heq => by
    obtain ⟨m, hm, hlabel⟩ := hlabels l hl
    have hchecked := Graph.isLabel_of_mem hg hm
    rw [hlabel, heq] at hchecked
    revert hchecked
    decide
  have hid : ∀ l ∈ labels, ∃ id, g.idOf? l = some id := fun l hl => by
    obtain ⟨m, hm, hlabel⟩ := hlabels l hl
    obtain ⟨id, hm⟩ := List.mem_iff_getElem?.mp hm
    exact ⟨id, (Graph.idOf?_eq_some_iff hg).mpr ⟨m, hm, hlabel⟩⟩
  have hfound : ∃ es, FirewallPlan.endpoints g t label field labels = .ok es :=
    FirewallPlan.exists_endpoints_iff.mpr fun l hl hunknown => by
      obtain ⟨id, hid⟩ := hid l hl
      cases hid.symm.trans hunknown.not_label
  obtain ⟨es, hes⟩ := hfound
  obtain ⟨hnd, -, hmem⟩ := FirewallPlan.endpoints_eq_ok hes
  refine ⟨es, hes, hnd, fun e => (hmem e).trans (exists_congr fun l => and_congr_right fun hl => ?_)⟩
  obtain ⟨id, hid⟩ := hid l hl
  simp [standsFor_label (hany l hl) hid, hid]

/-- The source of a declared redirection is resolved to nothing exactly if the machine has no
address. -/
theorem exists_sources_of_dnat (t : Topology) {id : MachineId} {m : Machine}
    (hm : g.machine? id = some m) {r : TrafficRule} (hr : r ∈ m.dnat) (field : String) :
    ∃ sources, FirewallPlan.endpoints g t m.label field [r.source] = .ok sources ∧
      (sources = [] ↔ t.addressesOf id = []) := by
  have hmem := List.mem_of_getElem? hm
  have hid : g.idOf? m.label = some id := (Graph.idOf?_eq_some_iff hg).mpr ⟨m, hm, rfl⟩
  rw [Graph.source_of_dnat hg hmem r hr]
  obtain ⟨sources, hsources, -, hends⟩ := exists_endpoints_of_labels hg t m.label field
    [m.label] fun l hl => ⟨m, hmem, (List.mem_singleton.mp hl).symm⟩
  refine ⟨sources, hsources, ?_⟩
  simp only [List.mem_singleton, exists_eq_left, hid, Option.some_inj, exists_eq_left'] at hends
  rw [List.eq_nil_iff_forall_not_mem, List.eq_nil_iff_forall_not_mem]
  constructor
  · exact fun hnone a ha => hnone _ ((hends _).mpr ⟨a, ha, rfl⟩)
  · rintro hnone e he
    obtain ⟨a, ha, -⟩ := (hends e).mp he
    exact hnone a ha

end Described

/-! ## Networks -/

/-- What is resolved, in every network. The ends of targets are what the targets stand for, each
once, and anywhere only if that is asked for; they are found unless a target is unknown, and the
error names one that is; a label without addresses stands for nothing. A rule is kept in a plan
exactly if both of its ends are left. A redirection is kept exactly if its machine has an address,
which in a described network is to say that its source is left, whatever is left of its
destinations. -/
theorem resolution_exact (g : Graph) (t : Topology) :
    (∀ label field targets,
      (∀ es, FirewallPlan.endpoints g t label field targets = .ok es →
        es.Nodup ∧ (∀ e, e ∈ es ↔ ∃ target ∈ targets, StandsFor g t target e) ∧
        (.any ∈ es ↔ anywhere ∈ targets)) ∧
      ((∃ e, FirewallPlan.endpoints g t label field targets = .error e) ↔
        ∃ target ∈ targets, g.IsUnknown target) ∧
      ∀ e, FirewallPlan.endpoints g t label field targets = .error e →
        ∃ target ∈ targets, g.IsUnknown target ∧ e = .unresolvedLabel label field target) ∧
    (∀ target id, target ≠ anywhere → g.idOf? target = some id → t.addressesOf id = [] →
      ∀ e, ¬StandsFor g t target e) ∧
    (∀ p, (FirewallPlan.ofTopology g t).result = .ok p →
      List.Forall₂ (fun e w => FirewallPlan.KeepsAll g t e.2 w) g.entries p.machines ∧
      ∃ parts, List.Forall₂ (fun e part => KeepsRedirects g t e.1 e.2 part) g.entries parts ∧
        p.redirects = parts.flatten) ∧
    ∀ name d s, Graph.ofDescription name d s = .ok g → ∀ id m, g.machine? id = some m →
      ∀ r ∈ m.dnat, ∃ sources,
        FirewallPlan.endpoints g t m.label "firewall.dnat_to" [r.source] = .ok sources ∧
        (sources = [] ↔ t.addressesOf id = []) := by
  refine ⟨fun label field targets => ⟨fun es h => ?_, ?_, fun e => FirewallPlan.endpoints_eq_error⟩,
    fun target id hany hid hnone e => not_standsFor hany hid hnone,
    fun p => FirewallPlan.keeps_of_ofTopology,
    fun name d s hg id m hm r hr => exists_sources_of_dnat hg t hm hr _⟩
  · obtain ⟨hnd, -, hes⟩ := FirewallPlan.endpoints_eq_ok h
    exact ⟨hnd, hes, by simp [hes, standsFor_any]⟩
  · constructor
    · rintro ⟨e, he⟩
      obtain ⟨target, htarget, hunknown, -⟩ := FirewallPlan.endpoints_eq_error he
      exact ⟨target, htarget, hunknown⟩
    · rintro ⟨target, htarget, hunknown⟩
      cases h : FirewallPlan.endpoints g t label field targets with
      | error e => exact ⟨e, rfl⟩
      | ok es => exact absurd hunknown ((FirewallPlan.endpoints_eq_ok h).2.1 target htarget)

/-- A server that names a user without a device in a rule and in a redirection. -/
def strandedLab : Description where
  domain := some "lan"
  servers := [
    ("router", { types := ["router"] }),
    ("web", { types := ["dedicated"], mac := some "02:00:00:00:00:01",
              firewall := { listenTcp := [80], allowEgressTo := ["eva"], dnatTo := ["eva"] } })]
  users := [("eva", {})]

/-- The user adds nothing to a list of targets, and does not open it to everybody. -/
theorem resolution_exact_stranded :
    ∃ n es, (CompiledNetwork.ofDescription "lab" strandedLab .default).result = .ok n ∧
      FirewallPlan.endpoints n.graph n.topology "web" "firewall.allow_egress_to"
        ["web", "eva", "mirror.example.org", "web"] = .ok es ∧
      es = [.net (Block.single (.ofOctets 10 10 0 2)), .host "mirror.example.org"] ∧
      es.Nodup ∧ .any ∉ es ∧
      List.Forall₂ (fun e w => FirewallPlan.KeepsAll n.graph n.topology e.2 w) n.graph.entries
        n.firewall.machines := by
  have hlab : ((CompiledNetwork.ofDescription "lab" strandedLab .default).result).map (fun n =>
      decide (FirewallPlan.endpoints n.graph n.topology "web" "firewall.allow_egress_to"
        ["web", "eva", "mirror.example.org", "web"] =
          .ok [.net (Block.single (.ofOctets 10 10 0 2)), .host "mirror.example.org"])) =
      .ok true := by
    decide +kernel
  obtain ⟨n, hn, hlab⟩ := map_eq_ok.mp hlab
  have hes := of_decide_eq_true hlab
  obtain ⟨-, -, hp, -⟩ := CompiledNetwork.ofDescription_eq_ok hn
  obtain ⟨htargets, -, hplan, -⟩ := resolution_exact n.graph n.topology
  obtain ⟨hnd, -, hany⟩ := (htargets _ _ _).1 _ hes
  exact ⟨n, _, hn, hes, rfl, hnd, fun h => absurd (hany.mp h) (by decide), (hplan _ hp).1⟩

/-- The redirection is in the plan, although no destination is left for it. -/
theorem redirect_without_destination :
    ∃ n, (CompiledNetwork.ofDescription "lab" strandedLab .default).result = .ok n ∧
      ∃ m ∈ n.graph.machines, ∃ r ∈ m.dnat,
        FirewallPlan.endpoints n.graph n.topology m.label "firewall.dnat_to" r.destinations =
          .ok [] ∧
        ⟨m.label, r.protocol, [], r.ports, .ofOctets 10 10 0 2, false⟩ ∈ n.firewall.redirects := by
  have hlab : ((CompiledNetwork.ofDescription "lab" strandedLab .default).result).map (fun n =>
      decide (∃ m ∈ n.graph.machines, ∃ r ∈ m.dnat,
        FirewallPlan.endpoints n.graph n.topology m.label "firewall.dnat_to" r.destinations =
          .ok [] ∧
        ⟨m.label, r.protocol, [], r.ports, .ofOctets 10 10 0 2, false⟩ ∈
          n.firewall.redirects)) = .ok true := by
    decide +kernel
  obtain ⟨n, hn, hlab⟩ := map_eq_ok.mp hlab
  exact ⟨n, hn, of_decide_eq_true hlab⟩

end NetworkCompiler
