import NetworkCompiler.Proofs.Firewall.Grants
import NetworkCompiler.Proofs.Firewall.OpenPorts
import NetworkCompiler.Proofs.Firewall.Tokens
import NetworkCompiler.Proofs.Network.Names

/-!
# Words of documents

Which texts of a description can break the lines of its packet filters. Labels and the names of
interfaces were checked for blanks, chains are written in letters, digits and underscores
(`ChainNames.isWord_of_mem`), and addresses, ports and fingerprints have none. The name of a host is
the text of a target, taken as it is if it has a dot (`Target.ofText_eq_host`). So
`documents_words_iff` : a document is read back as the tokens of its rules exactly if the names of
hosts in it are words.
-/

namespace NetworkCompiler

open Text (IsWord isBlank_of_isAlphanum)
open Text.Chars (IsSolid)

/-! ## Fingerprints and chains -/

theorem isBlank_hexDigit : ∀ n < 16, Text.isBlank (hexDigit n) = false := by
  decide

theorem isSolid_hex (bytes : List UInt8) : IsSolid (Digest.hex bytes).toList := by
  rw [Digest.hex, String.toList_ofList]
  intro c hc
  obtain ⟨b, -, hc⟩ := List.mem_flatMap.mp hc
  have hb := b.toNat_lt
  have hc : c ∈ [hexDigit (b.toNat / 16), hexDigit (b.toNat % 16)] := hc
  simp only [List.mem_cons, List.not_mem_nil, or_false] at hc
  rcases hc with rfl | rfl
  · exact isBlank_hexDigit _ (by omega)
  · exact isBlank_hexDigit _ (by omega)

theorem isSolid_encodeLabel (label : String) : IsSolid (encodeLabel label).toList :=
  fun _ hc => isBlank_of_isAlphanum (isAlphanum_of_mem_encodeLabel hc)

/-- The chains of a label are words. -/
theorem ChainNames.isWord_of_mem {label c : String} (hc : c ∈ (ofLabel label).all) : IsWord c := by
  have hbase := isSolid_encodeLabel label
  simp only [all, ofLabel, List.mem_cons, List.not_mem_nil, or_false] at hc
  rcases hc with rfl | rfl | rfl
  · exact Text.isWord_append hbase (by decide)
  · exact Text.isWord_append hbase (by decide)
  · exact Text.isWord_append hbase (by decide)

/-! ## Names of hosts -/

section Targets

variable {g : Graph} {t : Topology}

/-- A text that stands for a host is the name of the host, and has a dot. -/
theorem Target.ofText_eq_host {s name : String} (h : Target.ofText g s = .host name) :
    name = s ∧ '.' ∈ s.toList := by
  unfold Target.ofText at h
  split at h
  · cases h
  · split at h
    · cases h
    · split at h
      · cases h
      · cases h
      · split at h
        · next hdot =>
          cases h
          exact ⟨rfl, hdot⟩
        · cases h

theorem FirewallPlan.host_of_endpoints {label field : String} {targets : List String}
    {es : List Endpoint} (h : endpoints g t label field targets = .ok es) {name : String}
    (hname : .host name ∈ es) : name ∈ targets ∧ '.' ∈ name.toList := by
  obtain ⟨found, hfound, h⟩ := bind_eq_ok.mp h
  cases h
  rw [List.mem_eraseDups, List.mem_flatten] at hname
  obtain ⟨ends, hends, hname⟩ := hname
  obtain ⟨target, htarget, hread⟩ := exists_of_mem_right (mapM_eq_ok.mp hfound) hends
  unfold endpointsOf at hread
  split at hread
  · cases hread
    simp at hname
  · cases hread
    simp at hname
  · next other hother =>
    cases hread
    rw [List.mem_singleton, Endpoint.host.injEq] at hname
    obtain ⟨rfl, hdot⟩ := Target.ofText_eq_host hother
    rw [hname]
    exact ⟨htarget, hdot⟩
  · cases hread
    simp at hname
  · cases hread

/-- A text with a dot that a rule of a machine has as its source or as a destination. -/
def Graph.IsTarget (g : Graph) (name : String) : Prop :=
  '.' ∈ name.toList ∧
    ∃ m ∈ g.machines, ∃ r ∈ m.rules, name = r.source ∨ name ∈ r.destinations

/-- A plan in which a rule or a redirection names a host. -/
inductive FirewallPlan.Mentions (p : FirewallPlan) (name : String) : Prop where
  | source {m : MachineRules} {x : ResolvedRule} (hm : m ∈ p.machines) (hx : x ∈ m.towards)
      (hname : .host name ∈ x.sources)
  | destination {m : MachineRules} {x : ResolvedRule} (hm : m ∈ p.machines)
      (hx : x ∈ m.forward ++ m.egress) (hname : .host name ∈ x.destinations)
  | redirect {x : Redirect} (hx : x ∈ p.redirects) (hname : .host name ∈ x.destinations)

/-- The hosts in a plan are targets of rules in its graph. -/
theorem FirewallPlan.isTarget_of_mentions {p : FirewallPlan} (hp : (ofTopology g t).result = .ok p)
    {name : String} (h : p.Mentions name) : g.IsTarget name := by
  cases h with
  | @source w x hw hx hname =>
    obtain ⟨m, hm, -, -, hplan⟩ := exists_of_mem_machines hp hw
    obtain ⟨r, hr, field, hfrom⟩ := hplan.exists_isFrom (List.mem_append_left _ hx)
    obtain ⟨hsource, hdot⟩ := host_of_endpoints hfrom.sources hname
    exact ⟨hdot, m, List.mem_of_getElem? hm, r, hr, Or.inl (List.mem_singleton.mp hsource)⟩
  | @destination w x hw hx hname =>
    obtain ⟨m, hm, -, -, hplan⟩ := exists_of_mem_machines hp hw
    obtain ⟨r, hr, field, hfrom⟩ := hplan.exists_isFrom (List.mem_append_right _ hx)
    obtain ⟨hdestination, hdot⟩ := host_of_endpoints hfrom.destinations hname
    exact ⟨hdot, m, List.mem_of_getElem? hm, r, hr, Or.inr hdestination⟩
  | @redirect x hx hname =>
    obtain ⟨id, m, target, rest, hm, -, horigin⟩ := (mem_redirects_iff hp).mp hx
    cases horigin with
    | @declared r destinations hr hdestinations =>
      obtain ⟨hdestination, hdot⟩ := host_of_endpoints hdestinations hname
      exact ⟨hdot, m, List.mem_of_getElem? hm, r, by simp [Machine.rules, hr],
        Or.inr hdestination⟩
    | outer hexternal => simp [externalRedirect] at hname

end Targets

namespace Firewall

/-! ## Tables -/

section Tables

variable {p : FirewallPlan} {q : PacketRule} {chain host : String}

/-- A rule with one condition. -/
theorem isSpelled_singleton {c : Condition} {v : Verdict} (hchain : IsWord chain)
    (hc : c.IsSpelled) (hv : v.IsSpelled) : (⟨chain, [c], v⟩ : PacketRule).IsSpelled := by
  constructor
  · exact hchain
  · exact List.forall_mem_singleton.mpr hc
  · exact hv

/-- A rule with one condition and a service behind it. -/
theorem isSpelled_accept {c : Condition} {protocol : Protocol} {ports : PortSet}
    (hchain : IsWord chain) (hc : c.IsSpelled) :
    (⟨chain, [c, .service protocol ports], .accept⟩ : PacketRule).IsSpelled := by
  constructor
  · exact hchain
  · exact List.forall_mem_cons.mpr ⟨hc, List.forall_mem_singleton.mpr trivial⟩
  · trivial

theorem isSpelled_of_mem_acceptFrom (hchain : IsWord chain) {xs : List ResolvedRule}
    (hq : q ∈ xs.flatMap (acceptFrom chain)) : q.IsSpelled := by
  obtain ⟨x, -, e, -, rfl⟩ := exists_of_mem_acceptFrom hq
  exact isSpelled_accept hchain trivial

theorem isSpelled_of_mem_acceptTo (hchain : IsWord chain) {xs : List ResolvedRule}
    (hq : q ∈ xs.flatMap (acceptTo chain)) : q.IsSpelled := by
  obtain ⟨x, -, e, -, rfl⟩ := exists_of_mem_acceptTo hq
  exact isSpelled_accept hchain trivial

theorem isSpelled_of_mem_inputBaseline (hq : q ∈ inputBaseline) : q.IsSpelled := by
  simp only [inputBaseline, List.mem_cons, List.not_mem_nil, or_false] at hq
  rcases hq with rfl | rfl | rfl
  · exact isSpelled_singleton (by decide) (by decide : IsWord "lo") trivial
  · exact isSpelled_singleton (by decide) trivial trivial
  · exact isSpelled_singleton (by decide) trivial trivial

theorem isSpelled_markerRule (r : Ruleset) : r.markerRule.IsSpelled :=
  isSpelled_singleton (by decide) (isSolid_hex _) trivial

theorem isSpelled_filterChains : ∀ c ∈ filterChains, IsSolid c.name.toList ∧
    ∀ v ∈ c.policy, IsWord v.text := by
  decide

/-- The table that changes addresses has no names but those of outer interfaces and hosts. -/
theorem isSpelled_natTable (hwan : ∀ w ∈ p.wanInterfaces, IsWord w) : (natTable p).IsSpelled := by
  constructor
  · exact (by decide : IsSolid "nat".toList)
  · have hchains : ∀ c ∈ (natTable ⟨0, [], [], [], []⟩).chains, IsSolid c.name.toList ∧
        ∀ v ∈ c.policy, IsWord v.text := by
      decide
    exact hchains
  · intro q hq
    rcases List.mem_append.mp hq with hq | hq
    · obtain ⟨d, -, hq⟩ := List.mem_flatMap.mp hq
      obtain ⟨iface, hiface, hq⟩ := List.mem_flatMap.mp hq
      obtain ⟨e, -, rfl⟩ := List.mem_map.mp hq
      constructor
      · exact (by decide : IsWord "PREROUTING")
      · intro c hc
        simp only [List.mem_append, List.mem_map, List.mem_cons, List.not_mem_nil,
          or_false] at hc
        rcases hc with ⟨i, hi, rfl⟩ | rfl | rfl
        · refine hwan i ?_
          unfold redirectInterfaces at hiface
          split at hiface
          · obtain ⟨w, hw, rfl⟩ := List.mem_map.mp hiface
            rw [List.mem_singleton.mp hi]
            exact hw
          · rw [List.mem_singleton.mp hiface] at hi
            cases hi
        · trivial
        · trivial
      · trivial
    · obtain ⟨w, hw, rfl⟩ := List.mem_map.mp hq
      exact isSpelled_singleton (by decide) (hwan w hw) trivial

theorem isSpelled_of_mem_inputRules (hlan : ∀ l ∈ p.lanInterfaces, IsWord l)
    (hq : q ∈ inputRules p) : q.IsSpelled := by
  have hinput : IsWord inputChain := by
    decide
  simp only [inputRules, List.mem_append] at hq
  rcases hq with (hq | hq) | hq
  · exact isSpelled_of_mem_inputBaseline hq
  · obtain ⟨l, hl, hq⟩ := List.mem_flatMap.mp hq
    simp only [lanServices, List.mem_cons, List.not_mem_nil, or_false] at hq
    rcases hq with rfl | rfl
    · exact isSpelled_accept hinput (hlan l hl)
    · exact isSpelled_accept hinput (hlan l hl)
  · exact isSpelled_of_mem_acceptFrom hinput hq

theorem isSpelled_of_mem_memberRules {m : MachineRules} (hm : ∀ c ∈ m.chains.all, IsWord c)
    (hq : q ∈ memberRules m) : q.IsSpelled := by
  have hingress : IsWord m.chains.ingress := hm _ (by simp [ChainNames.all])
  have hforward : IsWord m.chains.forward := hm _ (by simp [ChainNames.all])
  have hegress : IsWord m.chains.egress := hm _ (by simp [ChainNames.all])
  simp only [memberRules, List.mem_append] at hq
  rcases hq with ((hq | hq) | hq) | hq
  · exact isSpelled_of_mem_acceptFrom hingress hq
  · exact isSpelled_of_mem_acceptTo hforward hq
  · rw [chain_of_mem_throttleRules hq]
    exact isSpelled_singleton hegress trivial trivial
  · exact isSpelled_of_mem_acceptTo hegress hq

theorem isSpelled_of_mem_jumps {m : MachineRules} (hm : ∀ c ∈ m.chains.all, IsWord c)
    (hq : q ∈ jumps m) : q.IsSpelled := by
  obtain ⟨a, -, hq⟩ := List.mem_flatMap.mp hq
  simp only [List.mem_cons, List.not_mem_nil, or_false] at hq
  rcases hq with rfl | rfl | rfl
  · exact isSpelled_singleton (by decide) trivial (hm _ (by simp [ChainNames.all]))
  · exact isSpelled_singleton (by decide) trivial (hm _ (by simp [ChainNames.all]))
  · exact isSpelled_singleton (by decide) trivial (hm _ (by simp [ChainNames.all]))

/-- The router's filter table has no names but those of inner interfaces, chains and hosts. -/
theorem isSpelled_router {g : Graph} {r : Ruleset} (hp : p.IsNamed)
    (hr : Ruleset.router? g p = .ok r) (hlan : ∀ l ∈ p.lanInterfaces, IsWord l) :
    r.loadedFilter.IsSpelled := by
  have hmember : ∀ m ∈ membersOf p, ∀ c ∈ m.chains.all, IsWord c := by
    intro m hm c hc
    rw [chains_of_mem_membersOf hp hm] at hc
    exact ChainNames.isWord_of_mem hc
  constructor
  · rw [Ruleset.loadedFilter, router?_eq_ok hr]
    exact (by decide : IsSolid "filter".toList)
  · intro c hc
    rw [Ruleset.loadedFilter, router?_eq_ok hr] at hc
    rcases List.mem_append.mp hc with hc | hc
    · exact isSpelled_filterChains c hc
    · obtain ⟨m, hm, hc⟩ := List.mem_flatMap.mp hc
      obtain ⟨chain, hchain, rfl⟩ := List.mem_map.mp hc
      refine ⟨(hmember m hm chain hchain).2, ?_⟩
      intro v hv
      cases hv
  · intro q hq
    rw [rules_loadedFilter hr] at hq
    simp only [List.mem_append, List.mem_cons, List.not_mem_nil, or_false] at hq
    rcases hq with ((hq | rfl | hq) | hq) | rfl
    · exact isSpelled_of_mem_inputRules hlan hq
    · exact isSpelled_singleton (by decide) trivial trivial
    · obtain ⟨m, hm, hq⟩ := List.mem_flatMap.mp hq
      exact isSpelled_of_mem_jumps (hmember m hm) hq
    · obtain ⟨m, hm, hq⟩ := List.mem_flatMap.mp hq
      exact isSpelled_of_mem_memberRules (hmember m hm) hq
    · exact isSpelled_markerRule r

/-- The table of another machine has no names but those of hosts. -/
theorem isSpelled_host (g : Graph) (p : FirewallPlan) (id : MachineId) :
    (Ruleset.host g p id).loadedFilter.IsSpelled := by
  constructor
  · exact (by decide : IsSolid "filter".toList)
  · exact isSpelled_filterChains
  · intro q hq
    simp only [Ruleset.loadedFilter, Ruleset.host, List.mem_append, List.mem_cons,
      List.not_mem_nil, or_false] at hq
    rcases hq with ((hq | rfl) | hq) | rfl
    · exact isSpelled_of_mem_inputBaseline hq
    · exact isSpelled_singleton (by decide) trivial trivial
    · exact isSpelled_of_mem_acceptFrom (by decide) hq
    · exact isSpelled_markerRule _

/-! ## Hosts in tables -/

theorem host?_source {e : Endpoint} : (Condition.source e).host? = some host ↔ e = .host host := by
  cases e <;> simp [Condition.host?]

theorem host?_destination {e : Endpoint} :
    (Condition.destination e).host? = some host ↔ e = .host host := by
  cases e <;> simp [Condition.host?]

theorem mem_hosts_accept {c : Condition} {protocol : Protocol} {ports : PortSet} :
    host ∈ [c, .service protocol ports].filterMap Condition.host? ↔ c.host? = some host := by
  simp [Condition.host?]

theorem host_of_mem_acceptFrom {xs : List ResolvedRule} (hq : q ∈ xs.flatMap (acceptFrom chain))
    (hhost : host ∈ q.conditions.filterMap Condition.host?) :
    ∃ x ∈ xs, .host host ∈ x.sources := by
  obtain ⟨x, hx, e, he, rfl⟩ := exists_of_mem_acceptFrom hq
  rw [mem_hosts_accept, host?_source] at hhost
  exact ⟨x, hx, hhost ▸ he⟩

theorem host_of_mem_acceptTo {xs : List ResolvedRule} (hq : q ∈ xs.flatMap (acceptTo chain))
    (hhost : host ∈ q.conditions.filterMap Condition.host?) :
    ∃ x ∈ xs, .host host ∈ x.destinations := by
  obtain ⟨x, hx, e, he, rfl⟩ := exists_of_mem_acceptTo hq
  rw [mem_hosts_accept, host?_destination] at hhost
  exact ⟨x, hx, hhost ▸ he⟩

theorem exists_machine_of_mem_towards {id : MachineId} {x : ResolvedRule}
    (hx : x ∈ ((p.machine? id).map MachineRules.towards).getD []) :
    ∃ m ∈ p.machines, x ∈ m.towards := by
  cases hm : p.machine? id with
  | none => simp [hm] at hx
  | some m =>
    simp only [hm, Option.map_some, Option.getD_some] at hx
    exact ⟨m, List.mem_of_find?_eq_some hm, hx⟩

theorem host_notMem_inputBaseline (hq : q ∈ inputBaseline) :
    host ∉ q.conditions.filterMap Condition.host? := by
  simp only [inputBaseline, List.mem_cons, List.not_mem_nil, or_false] at hq
  rcases hq with rfl | rfl | rfl <;> exact List.not_mem_nil

theorem mentions_of_natTable (h : host ∈ (natTable p).hostNames) : p.Mentions host := by
  obtain ⟨q, hq, hhost⟩ := List.mem_flatMap.mp h
  rcases List.mem_append.mp hq with hq | hq
  · obtain ⟨d, hd, hq⟩ := List.mem_flatMap.mp hq
    obtain ⟨iface, -, hq⟩ := List.mem_flatMap.mp hq
    obtain ⟨e, he, rfl⟩ := List.mem_map.mp hq
    obtain ⟨c, hc, hhost⟩ := List.mem_filterMap.mp hhost
    simp only [List.mem_append, List.mem_map, List.mem_cons, List.not_mem_nil, or_false] at hc
    rcases hc with ⟨i, -, rfl⟩ | rfl | rfl
    · cases hhost
    · rw [host?_destination] at hhost
      exact .redirect hd (hhost ▸ he)
    · cases hhost
  · obtain ⟨w, -, rfl⟩ := List.mem_map.mp hq
    cases hhost

theorem mentions_of_memberRules {m : MachineRules} (hm : m ∈ p.machines) (hq : q ∈ memberRules m)
    (hhost : host ∈ q.conditions.filterMap Condition.host?) : p.Mentions host := by
  simp only [memberRules, List.mem_append] at hq
  rcases hq with ((hq | hq) | hq) | hq
  · obtain ⟨x, hx, hname⟩ := host_of_mem_acceptFrom hq hhost
    exact .source hm hx hname
  · obtain ⟨x, hx, hname⟩ := host_of_mem_acceptTo hq hhost
    exact .destination hm (List.mem_append_left _ hx) hname
  · rw [chain_of_mem_throttleRules hq] at hhost
    cases hhost
  · obtain ⟨x, hx, hname⟩ := host_of_mem_acceptTo hq hhost
    exact .destination hm (List.mem_append_right _ hx) hname

/-- The hosts in the router's filter table are hosts of the plan. -/
theorem mentions_of_router {g : Graph} {r : Ruleset} (hr : Ruleset.router? g p = .ok r)
    (h : host ∈ r.loadedFilter.hostNames) : p.Mentions host := by
  obtain ⟨q, hq, hhost⟩ := List.mem_flatMap.mp h
  rw [rules_loadedFilter hr] at hq
  simp only [inputRules, List.mem_append, List.mem_cons, List.not_mem_nil, or_false] at hq
  rcases hq with (((((hq | hq) | hq) | rfl | hq) | hq) | rfl)
  · exact absurd hhost (host_notMem_inputBaseline hq)
  · obtain ⟨l, -, hq⟩ := List.mem_flatMap.mp hq
    simp only [lanServices, List.mem_cons, List.not_mem_nil, or_false] at hq
    rcases hq with rfl | rfl <;> cases hhost
  · obtain ⟨x, hx, hname⟩ := host_of_mem_acceptFrom hq hhost
    obtain ⟨m, hm, hx⟩ := exists_machine_of_mem_towards hx
    exact .source hm hx hname
  · cases hhost
  · obtain ⟨m, -, hq⟩ := List.mem_flatMap.mp hq
    obtain ⟨a, -, hq⟩ := List.mem_flatMap.mp hq
    simp only [List.mem_cons, List.not_mem_nil, or_false] at hq
    rcases hq with rfl | rfl | rfl <;> cases hhost
  · obtain ⟨m, hm, hq⟩ := List.mem_flatMap.mp hq
    exact mentions_of_memberRules
      (List.mem_of_mem_filter (List.mem_of_mem_filter hm)) hq hhost
  · cases hhost

/-- The hosts in the table of another machine are hosts of the plan. -/
theorem mentions_of_host {g : Graph} {id : MachineId}
    (h : host ∈ (Ruleset.host g p id).hostNames) : p.Mentions host := by
  obtain ⟨q, hq, hhost⟩ := List.mem_flatMap.mp ((List.mem_append.mp h).resolve_left nofun)
  simp only [Ruleset.loadedFilter, Ruleset.host, List.mem_append, List.mem_cons, List.not_mem_nil,
    or_false] at hq
  rcases hq with ((hq | rfl) | hq) | rfl
  · exact absurd hhost (host_notMem_inputBaseline hq)
  · cases hhost
  · obtain ⟨x, hx, hname⟩ := host_of_mem_acceptFrom hq hhost
    obtain ⟨m, hm, hx⟩ := exists_machine_of_mem_towards hx
    exact .source hm hx hname
  · cases hhost

end Tables

/-! ## Documents -/

theorem isSolid_labelAt {name : String} {d : Description} {s : Settings} {g : Graph}
    (hg : Graph.ofDescription name d s = .ok g) (id : MachineId) :
    IsSolid (labelAt g id).toList := by
  unfold labelAt
  cases hm : g.machine? id with
  | none => exact List.forall_mem_nil _
  | some m => exact isSolid_of_isLabel (Graph.isLabel_of_mem hg (List.mem_of_getElem? hm))

theorem nat_of_router {g : Graph} {p : FirewallPlan} {r : Ruleset}
    (hr : Ruleset.router? g p = .ok r) :
    r.title = labelAt g p.router ++ ": router ruleset" ∧ r.nat = some (natTable p) := by
  unfold Ruleset.router? at hr
  split at hr <;> cases hr
  exact ⟨rfl, rfl⟩

/-- The documents of a compiled network as packet filters, on the router and on every other machine.
A document is read back as the tokens that its rules determine, line by line and word by word,
exactly if every name of a host in it is a word. Such a name is the text of a target of a rule, with
a dot in it; no label and no name of an interface adds a word or a line. -/
theorem documents_words_iff (name : String) (d : Description) (s : Settings) (n : CompiledNetwork)
    (hn : (CompiledNetwork.ofDescription name d s).result = .ok n) :
    (∀ r, Ruleset.router? n.graph n.firewall = .ok r →
      FirewallKind.iptables.routerDocument n.graph n.firewall = .ok r.document ∧
      (r.IsReadBack (labelAt n.graph n.firewall.router) "router" ↔
        ∀ host ∈ r.hostNames, IsWord host) ∧
      ∀ host ∈ r.hostNames, n.graph.IsTarget host) ∧
    ∀ id,
      FirewallKind.iptables.hostDocument n.graph n.firewall id =
        (Ruleset.host n.graph n.firewall id).document ∧
      ((Ruleset.host n.graph n.firewall id).IsReadBack (labelAt n.graph id) "host" ↔
        ∀ host ∈ (Ruleset.host n.graph n.firewall id).hostNames, IsWord host) ∧
      ∀ host ∈ (Ruleset.host n.graph n.firewall id).hostNames, n.graph.IsTarget host := by
  have hnamed := CompiledNetwork.isNamed hn
  obtain ⟨hg, ht, hp, -⟩ := CompiledNetwork.ofDescription_eq_ok hn
  obtain ⟨hwan, hlan⟩ := FirewallPlan.isWord_interfaces hg ht hp
  constructor
  · intro r hr
    obtain ⟨htitle, hnat⟩ := nat_of_router hr
    refine ⟨?_, ?_, ?_⟩
    · rw [FirewallKind.routerDocument, hr]
      rfl
    · refine Ruleset.isReadBack_iff ?_ (isSolid_labelAt hg _) (by decide) ?_
        (isSpelled_router hnamed hr hlan)
      · rw [htitle, ← String.toList_inj]
        simp
      · intro t ht
        rw [hnat] at ht
        cases ht
        exact isSpelled_natTable hwan
    · intro host hhost
      refine FirewallPlan.isTarget_of_mentions hp ?_
      rcases List.mem_append.mp hhost with hhost | hhost
      · rw [hnat] at hhost
        exact mentions_of_natTable hhost
      · exact mentions_of_router hr hhost
  · intro id
    refine ⟨rfl, ?_, ?_⟩
    · refine Ruleset.isReadBack_iff ?_ (isSolid_labelAt hg _) (by decide) ?_
        (isSpelled_host n.graph n.firewall id)
      · rw [Ruleset.host, ← String.toList_inj]
        simp
      · intro t ht
        cases ht
    · intro host hhost
      exact FirewallPlan.isTarget_of_mentions hp (mentions_of_host hhost)

theorem documents_words_iff_lab :
    ∃ n r, (CompiledNetwork.ofDescription "lab" exposedLab .default).result = .ok n ∧
      Ruleset.router? n.graph n.firewall = .ok r ∧ r.hostNames = ["probe.example.org"] ∧
      r.IsReadBack (labelAt n.graph n.firewall.router) "router" := by
  have hhosts : ((CompiledNetwork.ofDescription "lab" exposedLab .default).result >>= fun n =>
      ((Ruleset.router? n.graph n.firewall).mapError Failure.compile).map fun r =>
        r.hostNames) = .ok ["probe.example.org"] := by
    decide +kernel
  obtain ⟨n, hn, hhosts⟩ := bind_eq_ok.mp hhosts
  obtain ⟨r, hr, hhosts⟩ := map_eq_ok.mp hhosts
  have hr := mapError_eq_ok.mp hr
  obtain ⟨-, hread, -⟩ := (documents_words_iff "lab" exposedLab .default n hn).1 r hr
  refine ⟨n, r, hn, hr, hhosts, hread.mpr ?_⟩
  rw [hhosts]
  decide

/-- A router and a server that may open connections to something with a dot. -/
def brokenLab : Description where
  servers := [
    ("router", { types := ["router"] }),
    ("web", { types := ["dedicated"],
              firewall := { allowEgressTo := ["mail.example.org -j ACCEPT\n-A INPUT"] },
              lan := [("lan0", { mac := some "02:00:00:00:00:01" })] })]

/-- A target adds a line to the router's document : one that lets every connection to two ports of
the router in. -/
theorem documents_words_broken :
    ∃ n r, (CompiledNetwork.ofDescription "lab" brokenLab .default).result = .ok n ∧
      Ruleset.router? n.graph n.firewall = .ok r ∧
      (∃ q ∈ r.filter.rules, q.line = "-A web_egress -d mail.example.org -j ACCEPT\n" ++
        "-A INPUT -p tcp -m multiport --dports 80,443 -j ACCEPT") ∧
      ¬r.IsReadBack (labelAt n.graph n.firewall.router) "router" := by
  have hlines : ((CompiledNetwork.ofDescription "lab" brokenLab .default).result >>= fun n =>
      ((Ruleset.router? n.graph n.firewall).mapError Failure.compile).map fun r =>
        decide ("-A web_egress -d mail.example.org -j ACCEPT\n" ++
            "-A INPUT -p tcp -m multiport --dports 80,443 -j ACCEPT" ∈
          r.filter.rules.map PacketRule.line ∧
          "mail.example.org -j ACCEPT\n-A INPUT" ∈ r.hostNames)) = .ok true := by
    decide +kernel
  obtain ⟨n, hn, hlines⟩ := bind_eq_ok.mp hlines
  obtain ⟨r, hr, hlines⟩ := map_eq_ok.mp hlines
  obtain ⟨hline, hhost⟩ := of_decide_eq_true hlines
  obtain ⟨q, hq, hline⟩ := List.mem_map.mp hline
  refine ⟨n, r, hn, mapError_eq_ok.mp hr, ⟨q, hq, hline⟩, ?_⟩
  intro hread
  exact absurd (hread.isWord_of_host hhost) (by decide)

end Firewall

end NetworkCompiler
