import NetworkCompiler.Proofs.Firewall.DocumentWords
import NetworkCompiler.Proofs.Firewall.LoadableTables

/-!
# Declared chains

The chains of the router's tables. The ones that every table has are told from those of machines by
the underscore in their names, and those of two machines by the labels
(`pairwise_disjoint_chains`). The filter table declares the chains of exactly the machines that it
has rules for (`FirewallPlan.NeedsChains`), so it declares all that it names
(`isClosed_loadedFilter`). `router_document_loadable` : the document is loaded as it stands, and
there is none exactly if a machine needs a chain whose name is too long.
-/

namespace NetworkCompiler

open Text.Chars (IsSolid)

/-- A machine with chains on the router : one that is not the router itself, asks for something, and
is reached at an address. -/
structure FirewallPlan.NeedsChains (p : FirewallPlan) (m : MachineRules) : Prop where
  mem : m ∈ p.machines
  ne_router : m.id ≠ p.router
  asks : m.isEmpty = false
  reached : m.addresses ≠ []

namespace Firewall

/-! ## The router's tables -/

section Router

variable {p : FirewallPlan}

/-- The table that changes addresses has built-in chains only, and no jumps. -/
theorem isClosed_natTable (p : FirewallPlan) : (natTable p).IsClosed := by
  have hrules : ∀ q ∈ (natTable p).rules,
      q.chain ∈ ["PREROUTING", "POSTROUTING"] ∧ ∀ c, q.verdict ≠ .jump c := by
    intro q hq
    rcases List.mem_append.mp hq with hq | hq
    · obtain ⟨d, -, hq⟩ := List.mem_flatMap.mp hq
      obtain ⟨iface, -, hq⟩ := List.mem_flatMap.mp hq
      obtain ⟨e, -, rfl⟩ := List.mem_map.mp hq
      exact ⟨List.mem_cons_self, nofun⟩
    · obtain ⟨w, -, rfl⟩ := List.mem_map.mp hq
      exact ⟨List.mem_cons_of_mem _ List.mem_cons_self, nofun⟩
  have hchains : (natTable p).chains =
      ["PREROUTING", inputChain, "OUTPUT", "POSTROUTING"].map fun c => ⟨c, some .accept⟩ := rfl
  constructor
  · rw [Table.chainNames, hchains]
    decide
  · rw [hchains]
    decide
  · intro q hq
    have hsub : ∀ c ∈ ["PREROUTING", "POSTROUTING"], c ∈ (natTable p).chainNames := by
      rw [Table.chainNames, hchains]
      decide
    exact hsub _ (hrules q hq).1
  · intro q hq c hv
    exact absurd hv ((hrules q hq).2 c)

/-- The chains of two machines of a plan never meet. -/
theorem pairwise_disjoint_chains (hp : p.IsNamed) :
    p.machines.Pairwise fun m m' => m.chains.all.Disjoint m'.chains.all := by
  refine (List.pairwise_map.mp hp.nodup_labels).imp_of_mem fun {m m'} hm hm' hne c hc hc' => ?_
  rw [hp.chains_eq m hm] at hc
  rw [hp.chains_eq m' hm'] at hc'
  exact hne (ChainNames.label_unique hc hc')

/-- The chains that the kernel brings along. -/
def builtInChains : List String :=
  ["PREROUTING", inputChain, forwardChain, "OUTPUT", "POSTROUTING"]

/-- The chain of a machine has an underscore in its name. -/
theorem ne_of_mem_chains (hp : p.IsNamed) {m : MachineRules} (hm : m ∈ p.machines) {c : String}
    (hc : c ∈ m.chains.all) : c ∉ builtInChains ∧ c ≠ markerChain ∧ c ≠ "-j" := by
  have hunderscore : '_' ∈ c.toList := by
    rw [hp.chains_eq m hm] at hc
    exact ChainNames.underscore_mem m.label hc
  have hother : ∀ b ∈ markerChain :: "-j" :: builtInChains, '_' ∉ b.toList := by
    decide
  have hne : ∀ b ∈ markerChain :: "-j" :: builtInChains, c ≠ b := by
    rintro b hb rfl
    exact hother c hb hunderscore
  refine ⟨fun hbuiltIn => ?_, hne _ List.mem_cons_self,
    hne _ (List.mem_cons_of_mem _ List.mem_cons_self)⟩
  exact hne c (List.mem_cons_of_mem _ (List.mem_cons_of_mem _ hbuiltIn)) rfl

theorem verdict_of_mem_memberRules {m : MachineRules} {q : PacketRule} (hq : q ∈ memberRules m) :
    q.verdict = .accept ∨ q.verdict = .drop := by
  simp only [memberRules, List.mem_append] at hq
  rcases hq with ((hq | hq) | hq) | hq
  · exact Or.inl (chain_of_mem_acceptFrom hq).2
  · exact Or.inl (chain_of_mem_acceptTo hq).2
  · rw [chain_of_mem_throttleRules hq]
    exact Or.inr rfl
  · exact Or.inl (chain_of_mem_acceptTo hq).2

theorem mem_machines_of_mem_membersOf {m : MachineRules} (hm : m ∈ membersOf p) :
    m ∈ p.machines :=
  List.mem_of_mem_filter (List.mem_of_mem_filter hm)

section Filter

variable {g : Graph} {r : Ruleset} (hr : Ruleset.router? g p = .ok r)
include hr

theorem chains_loadedFilter : r.loadedFilter.chains =
    filterChains ++ (membersOf p).flatMap fun m => m.chains.all.map fun c => ⟨c, none⟩ := by
  rw [Ruleset.loadedFilter, router?_eq_ok hr]
  rfl

theorem chainNames_loadedFilter : r.loadedFilter.chainNames =
    [inputChain, forwardChain, "OUTPUT", markerChain] ++
      (membersOf p).flatMap fun m => m.chains.all := by
  rw [Table.chainNames, chains_loadedFilter hr, List.map_append, List.map_flatMap]
  simp [filterChains, Function.comp_def]

theorem nodup_chainNames_loadedFilter (hp : p.IsNamed) : r.loadedFilter.chainNames.Nodup := by
  rw [chainNames_loadedFilter hr, List.nodup_append']
  refine ⟨by decide, List.nodup_flatMap.mpr ⟨?_, ?_⟩, ?_⟩
  · intro m hm
    rw [chains_of_mem_membersOf hp hm]
    simp [ChainNames.all]
  · exact (pairwise_disjoint_chains hp).sublist (List.filter_sublist.trans List.filter_sublist)
  · intro c hc hmember
    obtain ⟨m, hm, hmember⟩ := List.mem_flatMap.mp hmember
    obtain ⟨hbuiltIn, hmarker, -⟩ :=
      ne_of_mem_chains hp (mem_machines_of_mem_membersOf hm) hmember
    simp only [List.mem_cons, List.not_mem_nil, or_false] at hc
    rcases hc with rfl | rfl | rfl | rfl
    · exact hbuiltIn (by decide)
    · exact hbuiltIn (by decide)
    · exact hbuiltIn (by decide)
    · exact hmarker rfl

theorem chain_mem_loadedFilter {q : PacketRule} (hq : q ∈ r.loadedFilter.rules) :
    q.chain ∈ [inputChain, forwardChain, "OUTPUT", markerChain] ++
      (membersOf p).flatMap fun m => m.chains.all := by
  rw [rules_loadedFilter hr] at hq
  rw [List.mem_append]
  rcases List.mem_append.mp hq with hq | hq
  · rcases List.mem_append.mp hq with hq | hq
    · rcases List.mem_append.mp hq with hq | hq
      · rw [(chain_of_mem_inputRules hq).1]
        exact Or.inl (by decide)
      · rw [chain_of_mem_forwardRules q hq]
        exact Or.inl (by decide)
    · obtain ⟨m, hm, hq⟩ := List.mem_flatMap.mp hq
      exact Or.inr (List.mem_flatMap_of_mem hm (chain_of_mem_memberRules hq))
  · rw [List.mem_singleton.mp hq]
    exact Or.inl (by simp [Ruleset.markerRule])

theorem jump_loadedFilter {q : PacketRule} (hq : q ∈ r.loadedFilter.rules) {c : String}
    (hjump : q.verdict = .jump c) : ∃ m ∈ membersOf p, c ∈ m.chains.all := by
  rw [rules_loadedFilter hr] at hq
  rcases List.mem_append.mp hq with hq | hq
  · rcases List.mem_append.mp hq with hq | hq
    · rcases List.mem_append.mp hq with hq | hq
      · rw [(chain_of_mem_inputRules hq).2] at hjump
        cases hjump
      · rcases List.mem_cons.mp hq with rfl | hq
        · cases hjump
        · obtain ⟨m, hm, hq⟩ := List.mem_flatMap.mp hq
          obtain ⟨condition, chain, hchain, rfl⟩ := exists_of_mem_jumps hq
          cases hjump
          exact ⟨m, hm, hchain⟩
    · obtain ⟨m, -, hq⟩ := List.mem_flatMap.mp hq
      rcases verdict_of_mem_memberRules hq with hverdict | hverdict
      · rw [hverdict] at hjump
        cases hjump
      · rw [hverdict] at hjump
        cases hjump
  · rw [List.mem_singleton.mp hq] at hjump
    cases hjump

/-- The router's filter table declares the chains of every machine whose rules it has. -/
theorem isClosed_loadedFilter (hp : p.IsNamed) : r.loadedFilter.IsClosed := by
  constructor
  · exact nodup_chainNames_loadedFilter hr hp
  · have hfilter : ∀ c ∈ filterChains, c.policy ∈ [none, some .accept, some .drop] := by
      decide
    intro c hc
    rw [chains_loadedFilter hr] at hc
    rcases List.mem_append.mp hc with hc | hc
    · exact hfilter c hc
    · obtain ⟨m, -, hc⟩ := List.mem_flatMap.mp hc
      obtain ⟨chain, -, rfl⟩ := List.mem_map.mp hc
      exact List.mem_cons_self
  · intro q hq
    rw [chainNames_loadedFilter hr]
    exact chain_mem_loadedFilter hr hq
  · intro q hq c hjump
    obtain ⟨m, hm, hc⟩ := jump_loadedFilter hr hq hjump
    rw [chainNames_loadedFilter hr]
    exact ⟨List.mem_append_right _ (List.mem_flatMap_of_mem hm hc),
      (ne_of_mem_chains hp (mem_machines_of_mem_membersOf hm) hc).2.2⟩

end Filter

/-! ## Long names -/

theorem mem_membersOf_iff {m : MachineRules} : m ∈ membersOf p ↔ p.NeedsChains m := by
  simp only [membersOf, FirewallPlan.members, List.mem_filter, Bool.and_eq_true,
    Bool.not_eq_true', decide_eq_true_eq, List.isEmpty_eq_false_iff]
  constructor
  · rintro ⟨⟨hm, hrouter⟩, hasks, hreached⟩
    exact ⟨hm, hrouter, hasks, hreached⟩
  · rintro ⟨hm, hrouter, hasks, hreached⟩
    exact ⟨⟨hm, hrouter⟩, hasks, hreached⟩

theorem length_of_mem_chains (hp : p.IsNamed) {m : MachineRules} (hm : m ∈ membersOf p)
    {c : String} (hc : c ∈ m.chains.all) : c.utf8ByteSize = c.length := by
  rw [chains_of_mem_membersOf hp hm] at hc
  exact ChainNames.utf8ByteSize_of_mem hc

/-- There are no tables exactly if a machine needs a chain whose name is too long, and the error is
about such a chain. -/
theorem router?_cases (g : Graph) (hp : p.IsNamed) :
    (∃ r, Ruleset.router? g p = .ok r ∧
        ∀ m, p.NeedsChains m → ∀ c ∈ m.chains.all, c.length ≤ 28) ∨
      ∃ m c, p.NeedsChains m ∧ c ∈ m.chains.all ∧ 28 < c.length ∧
        Ruleset.router? g p = .error (.chainNameTooLong m.label c 28) := by
  cases hlong : longChain? (membersOf p) with
  | none =>
    refine Or.inl ⟨_, by rw [Ruleset.router?, hlong], fun m hm c hc => ?_⟩
    have hm := mem_membersOf_iff.mpr hm
    have hshort := List.find?_eq_none.mp hlong (m, c)
      (List.mem_flatMap_of_mem hm (List.mem_map_of_mem hc))
    rw [decide_eq_true_eq, length_of_mem_chains hp hm hc] at hshort
    exact Nat.not_lt.mp hshort
  | some found =>
    obtain ⟨m, c⟩ := found
    obtain ⟨m', hm, hmem⟩ := List.mem_flatMap.mp (List.mem_of_find?_eq_some hlong)
    obtain ⟨c', hc, heq⟩ := List.mem_map.mp hmem
    obtain ⟨rfl, rfl⟩ := Prod.mk.inj heq
    have hlength := List.find?_some hlong
    rw [decide_eq_true_eq, length_of_mem_chains hp hm hc] at hlength
    refine Or.inr ⟨m', c', mem_membersOf_iff.mp hm, hc, hlength, ?_⟩
    rw [Ruleset.router?, hlong]
    rfl

end Router

/-! ## The router's document -/

/-- The router's document of a compiled network is read back as its tokens if no host has blanks. -/
theorem isReadBack_of_solid {name : String} {d : Description} {s : Settings} {n : CompiledNetwork}
    (hn : (CompiledNetwork.ofDescription name d s).result = .ok n) {r : Ruleset}
    (hr : Ruleset.router? n.graph n.firewall = .ok r)
    (hhosts : ∀ host, n.firewall.Mentions host → IsSolid host.toList) :
    r.IsReadBack (labelAt n.graph n.firewall.router) "router" := by
  obtain ⟨hg, ht, hp, -⟩ := CompiledNetwork.ofDescription_eq_ok hn
  obtain ⟨hwan, hlan⟩ := FirewallPlan.isWord_interfaces hg ht hp
  obtain ⟨htitle, hnat⟩ := nat_of_router hr
  have htitle : r.title = labelAt n.graph n.firewall.router ++ ": " ++ "router" ++ " ruleset" := by
    rw [htitle, ← String.toList_inj]
    simp
  have hspelled : ∀ t ∈ r.nat, t.IsSpelled := by
    intro t ht
    rw [hnat] at ht
    cases ht
    exact isSpelled_natTable hwan
  refine (Ruleset.isReadBack_iff htitle (isSolid_labelAt hg _) (by decide) hspelled
    (isSpelled_router (CompiledNetwork.isNamed hn) hr hlan)).mpr fun host hhost => ?_
  have hmentions : n.firewall.Mentions host := by
    rcases List.mem_append.mp hhost with hhost | hhost
    · rw [hnat] at hhost
      exact mentions_of_natTable hhost
    · exact mentions_of_router hr hhost
  have hdot := (FirewallPlan.isTarget_of_mentions hp hmentions).1
  exact ⟨List.ne_nil_of_mem hdot, hhosts host hmentions⟩

/-- The router's document of a compiled network as a packet filter, if no host in it has blanks. It
is made of two tables, and both are loaded as they stand : every chain that a line appends to or
jumps into was declared once above it. The chains of two machines never meet, and none is one that
the kernel brings along or the one that carries the fingerprint. No name is longer than 28
characters, and there is no document exactly if a machine needs a chain with a longer one. -/
theorem router_document_loadable (name : String) (d : Description) (s : Settings)
    (n : CompiledNetwork) (hn : (CompiledNetwork.ofDescription name d s).result = .ok n) :
    (∀ doc, FirewallKind.iptables.routerDocument n.graph n.firewall = .ok doc →
      (∀ host, n.firewall.Mentions host → IsSolid host.toList) →
      ∃ nat filter,
        (Text.lines doc.content).map Text.words =
          ["#", labelAt n.graph n.firewall.router ++ ":", "router", "ruleset"] ::
            ((["*nat"] :: nat ++ [["COMMIT"]]) ++ (["*filter"] :: filter ++ [["COMMIT"]])) ∧
        (IsLoadable nat ∧
          nat.filterMap declared? = ["PREROUTING", "INPUT", "OUTPUT", "POSTROUTING"]) ∧
        IsLoadable filter ∧
          filter.filterMap declared? = ["INPUT", "FORWARD", "OUTPUT", "netconverge"] ++
            (membersOf n.firewall).flatMap fun m => m.chains.all) ∧
    (∀ m, m ∈ membersOf n.firewall ↔ n.firewall.NeedsChains m) ∧
    n.firewall.machines.Pairwise (fun m m' => m.chains.all.Disjoint m'.chains.all) ∧
    (∀ m ∈ n.firewall.machines, ∀ c ∈ m.chains.all, c ∉ builtInChains ∧ c ≠ markerChain) ∧
    ((∃ doc, FirewallKind.iptables.routerDocument n.graph n.firewall = .ok doc) ↔
      ∀ m, n.firewall.NeedsChains m → ∀ c ∈ m.chains.all, c.length ≤ 28) ∧
    ∀ e, FirewallKind.iptables.routerDocument n.graph n.firewall = .error e →
      ∃ m c, n.firewall.NeedsChains m ∧ c ∈ m.chains.all ∧ 28 < c.length ∧
        e = .chainNameTooLong m.label c 28 := by
  have hp := CompiledNetwork.isNamed hn
  refine ⟨?_, fun m => mem_membersOf_iff, pairwise_disjoint_chains hp, ?_, ?_, ?_⟩
  · intro doc hdoc hhosts
    obtain ⟨r, hr, rfl⟩ := map_eq_ok.mp hdoc
    obtain ⟨-, hnat⟩ := nat_of_router hr
    have hread := isReadBack_of_solid hn hr hhosts
    refine ⟨(natTable n.firewall).body, r.loadedFilter.body, ?_, ⟨?_, ?_⟩, ?_, ?_⟩
    · rw [hread, Ruleset.tokens, hnat, Ruleset.loadedFilter, router?_eq_ok hr]
      rfl
    · exact (isClosed_natTable n.firewall).isLoadable_body
    · rw [Table.filterMap_declared?]
      rfl
    · exact (isClosed_loadedFilter hr hp).isLoadable_body
    · rw [Table.filterMap_declared?]
      exact chainNames_loadedFilter hr
  · intro m hm c hc
    obtain ⟨hbuiltIn, hmarker, -⟩ := ne_of_mem_chains hp hm hc
    exact ⟨hbuiltIn, hmarker⟩
  · rcases router?_cases n.graph hp with ⟨r, hr, hshort⟩ | ⟨m, c, hm, hc, hlong, hr⟩
    · refine iff_of_true ⟨r.document, ?_⟩ hshort
      rw [FirewallKind.routerDocument, hr]
      rfl
    · refine iff_of_false ?_ fun hshort => Nat.not_lt.mpr (hshort m hm c hc) hlong
      rintro ⟨doc, hdoc⟩
      rw [FirewallKind.routerDocument, hr] at hdoc
      cases hdoc
  · intro e he
    rcases router?_cases n.graph hp with ⟨r, hr, -⟩ | ⟨m, c, hm, hc, hlong, hr⟩
    · rw [FirewallKind.routerDocument, hr] at he
      cases he
    · rw [FirewallKind.routerDocument, hr] at he
      cases he
      exact ⟨m, c, hm, hc, hlong, rfl⟩

/-- A router and a server with a long label. -/
def longLab : Description where
  servers := [
    ("measurement-archive", { types := ["dedicated"], firewall := { listenTcp := [443] },
                              lan := [("lan0", { mac := some "02:00:00:00:00:01" })] }),
    ("router", { types := ["router"] })]

theorem router_document_loadable_lab :
    (∃ n, (CompiledNetwork.ofDescription "lab" exposedLab .default).result = .ok n ∧
      (∃ doc, FirewallKind.iptables.routerDocument n.graph n.firewall = .ok doc) ∧
      (∀ host, n.firewall.Mentions host → IsSolid host.toList) ∧
      ∃ filter, IsLoadable filter ∧ filter.filterMap declared? =
        ["INPUT", "FORWARD", "OUTPUT", "netconverge", "dns_ingress", "dns_fwd", "dns_egress",
          "web_ingress", "web_fwd", "web_egress"]) ∧
    ∃ n m, (CompiledNetwork.ofDescription "lab" longLab .default).result = .ok n ∧
      n.firewall.NeedsChains m ∧ 28 < m.chains.ingress.length ∧
      ¬∃ doc, FirewallKind.iptables.routerDocument n.graph n.firewall = .ok doc := by
  constructor
  · have hlab : ((CompiledNetwork.ofDescription "lab" exposedLab .default).result).map (fun n =>
        decide ((∀ m ∈ n.graph.machines, ∀ r ∈ m.rules, ∀ target ∈ r.source :: r.destinations,
            IsSolid target.toList) ∧
          ((membersOf n.firewall).flatMap fun m => m.chains.all) = ["dns_ingress", "dns_fwd",
            "dns_egress", "web_ingress", "web_fwd", "web_egress"] ∧
          ∀ m ∈ membersOf n.firewall, ∀ c ∈ m.chains.all, c.length ≤ 28)) = .ok true := by
      decide +kernel
    obtain ⟨n, hn, hlab⟩ := map_eq_ok.mp hlab
    obtain ⟨hsolid, hchains, hshort⟩ := of_decide_eq_true hlab
    obtain ⟨hload, hmember, -, -, hok, -⟩ :=
      router_document_loadable "lab" exposedLab .default n hn
    obtain ⟨doc, hdoc⟩ := hok.mpr fun m hm => hshort m ((hmember m).mpr hm)
    obtain ⟨-, -, hp, -⟩ := CompiledNetwork.ofDescription_eq_ok hn
    have hhosts : ∀ host, n.firewall.Mentions host → IsSolid host.toList := by
      intro host hhost
      obtain ⟨-, m, hm, r, hr, htarget⟩ := FirewallPlan.isTarget_of_mentions hp hhost
      exact hsolid m hm r hr host (List.mem_cons.mpr htarget)
    obtain ⟨-, filter, -, -, hloadable, hdeclared⟩ := hload doc hdoc hhosts
    rw [hchains] at hdeclared
    exact ⟨n, hn, ⟨doc, hdoc⟩, hhosts, filter, hloadable, hdeclared⟩
  · have hlab : ((CompiledNetwork.ofDescription "lab" longLab .default).result).map (fun n =>
        (membersOf n.firewall).any fun m => 28 < m.chains.ingress.length) = .ok true := by
      decide +kernel
    obtain ⟨n, hn, hlab⟩ := map_eq_ok.mp hlab
    obtain ⟨m, hm, hlong⟩ := List.any_eq_true.mp hlab
    have hlong := of_decide_eq_true hlong
    obtain ⟨-, hmember, -, -, hok, -⟩ := router_document_loadable "lab" longLab .default n hn
    have hm := (hmember m).mp hm
    refine ⟨n, m, hn, hm, hlong, fun hdoc => ?_⟩
    exact Nat.not_lt.mpr (hok.mp hdoc m hm m.chains.ingress (by simp [ChainNames.all])) hlong

end Firewall

end NetworkCompiler
