import NetworkCompiler.Proofs.Firewall.ChainNames
import NetworkCompiler.Proofs.Firewall.Plans
import NetworkCompiler.Proofs.Firewall.Traversal

/-!
# Chains of the router

Which rules stand in which chain of the router's filter table (`rulesOf_loadedFilter`) : the
forwarding chain has the jumps (`rulesOf_forwardChain`), the chain for traffic to the router has its
own rules (`rulesOf_inputChain`), and each chain of a machine has the rules of that machine alone
(`rulesOf_ingress`, `rulesOf_forward`, `rulesOf_egress`), because the chains of a plan are
distinct. The chains that the kernel brings along and the chain of the fingerprint have no
underscore in their names, the chains of machines have one.
-/

namespace NetworkCompiler.Firewall

/-! ## The loaded table -/

namespace Ruleset

/-- The filter table as it is loaded, with the rule that carries the fingerprint. -/
def loadedFilter (r : Ruleset) : Table :=
  { r.filter with rules := r.filter.rules ++ [r.markerRule] }

/-- The lines of a document in front of the filter table. -/
def leadingLines (r : Ruleset) : List String :=
  ("# " ++ r.title) :: (r.nat.map Table.lines).getD []

/-- The document ends with the lines of the loaded filter table. -/
theorem content_document (r : Ruleset) :
    r.document.content = Text.unlines (r.leadingLines ++ r.loadedFilter.lines) := by
  have hlines : r.openLines ++ [r.markerRule.line, commitLine] =
      r.leadingLines ++ r.loadedFilter.lines := by
    simp [openLines, leadingLines, loadedFilter, Table.lines, Table.openLines]
  rw [document, hlines]

end Ruleset

/-! ## Rules of one chain -/

section OneChain

variable {rs : List PacketRule} {c d : String}

theorem filter_chain_eq_self (h : ∀ r ∈ rs, r.chain = c) :
    rs.filter (fun r => r.chain = c) = rs :=
  List.filter_eq_self.mpr fun r hr => decide_eq_true (h r hr)

theorem filter_chain_eq_nil (h : ∀ r ∈ rs, r.chain ≠ c) :
    rs.filter (fun r => r.chain = c) = [] :=
  List.filter_eq_nil_iff.mpr fun r hr => by simpa using h r hr

theorem chain_of_mem_acceptFrom {xs : List ResolvedRule} {r : PacketRule}
    (h : r ∈ xs.flatMap (acceptFrom c)) : r.chain = c ∧ r.verdict = .accept := by
  obtain ⟨x, -, h⟩ := List.mem_flatMap.mp h
  obtain ⟨e, -, rfl⟩ := List.mem_map.mp h
  exact ⟨rfl, rfl⟩

theorem chain_of_mem_acceptTo {xs : List ResolvedRule} {r : PacketRule}
    (h : r ∈ xs.flatMap (acceptTo c)) : r.chain = c ∧ r.verdict = .accept := by
  obtain ⟨x, -, h⟩ := List.mem_flatMap.mp h
  obtain ⟨e, -, rfl⟩ := List.mem_map.mp h
  exact ⟨rfl, rfl⟩

theorem chain_of_mem_throttleRules {m : MachineRules} {r : PacketRule} (h : r ∈ throttleRules m) :
    r = ⟨m.chains.egress, [.aboveLimit], .drop⟩ := by
  unfold throttleRules at h
  split at h
  · exact List.mem_singleton.mp h
  · cases h

theorem exists_of_mem_jumps {m : MachineRules} {r : PacketRule} (h : r ∈ jumps m) :
    ∃ condition, ∃ c ∈ m.chains.all, r = ⟨forwardChain, [condition], .jump c⟩ := by
  obtain ⟨a, -, h⟩ := List.mem_flatMap.mp h
  simp only [List.mem_cons, List.not_mem_nil, or_false] at h
  rcases h with rfl | rfl | rfl
  · exact ⟨_, m.chains.ingress, by simp [ChainNames.all], rfl⟩
  · exact ⟨_, m.chains.forward, by simp [ChainNames.all], rfl⟩
  · exact ⟨_, m.chains.egress, by simp [ChainNames.all], rfl⟩

theorem chain_of_mem_forwardRules {ms : List MachineRules} :
    ∀ q ∈ (⟨forwardChain, [.established], .accept⟩ : PacketRule) :: ms.flatMap jumps,
      q.chain = forwardChain := by
  refine List.forall_mem_cons.mpr ⟨rfl, fun q hq => ?_⟩
  obtain ⟨m, -, hq⟩ := List.mem_flatMap.mp hq
  obtain ⟨condition, c, -, rfl⟩ := exists_of_mem_jumps hq
  rfl

theorem chain_of_mem_memberRules {m : MachineRules} {r : PacketRule} (h : r ∈ memberRules m) :
    r.chain ∈ m.chains.all := by
  simp only [memberRules, List.mem_append] at h
  rcases h with ((h | h) | h) | h
  · simp [ChainNames.all, (chain_of_mem_acceptFrom h).1]
  · simp [ChainNames.all, (chain_of_mem_acceptTo h).1]
  · simp [ChainNames.all, chain_of_mem_throttleRules h]
  · simp [ChainNames.all, (chain_of_mem_acceptTo h).1]

theorem filter_chain_of_forall (h : ∀ r ∈ rs, r.chain = d) :
    rs.filter (fun r => r.chain = c) = if d = c then rs else [] := by
  split
  · next hdc => exact filter_chain_eq_self fun r hr => (h r hr).trans hdc
  · next hdc => exact filter_chain_eq_nil fun r hr => by rwa [h r hr]

/-- The rules of a machine by chain. -/
theorem filter_memberRules (m : MachineRules) (c : String) :
    (memberRules m).filter (fun r => r.chain = c) =
      (if m.chains.ingress = c then m.towards.flatMap (acceptFrom m.chains.ingress) else []) ++
        (if m.chains.forward = c then m.forward.flatMap (acceptTo m.chains.forward) else []) ++
          if m.chains.egress = c then
            throttleRules m ++ m.egress.flatMap (acceptTo m.chains.egress)
          else [] := by
  have hegress : ∀ r ∈ throttleRules m ++ m.egress.flatMap (acceptTo m.chains.egress),
      r.chain = m.chains.egress := fun r hr => by
    rcases List.mem_append.mp hr with hr | hr
    · rw [chain_of_mem_throttleRules hr]
    · exact (chain_of_mem_acceptTo hr).1
  rw [memberRules, List.append_assoc, List.filter_append, List.filter_append,
    filter_chain_of_forall fun r hr => (chain_of_mem_acceptFrom hr).1,
    filter_chain_of_forall fun r hr => (chain_of_mem_acceptTo hr).1, filter_chain_of_forall hegress]

end OneChain

/-! ## The chains of the router's filter table -/

section Router

variable {g : Graph} {p : FirewallPlan} {r : Ruleset}

theorem router?_eq_ok (h : Ruleset.router? g p = .ok r) : r.filter = routerFilter p := by
  unfold Ruleset.router? at h
  split at h <;> cases h
  rfl

/-- The rules for the router itself. -/
def inputRules (p : FirewallPlan) : List PacketRule :=
  inputBaseline ++ p.lanInterfaces.flatMap lanServices ++
    p.routerRules.flatMap (acceptFrom inputChain)

theorem chain_of_mem_inputRules {q : PacketRule} (h : q ∈ inputRules p) :
    q.chain = inputChain ∧ q.verdict = .accept := by
  simp only [inputRules, inputBaseline, lanServices, List.mem_append, List.mem_flatMap,
    List.mem_cons, List.not_mem_nil, or_false] at h
  rcases h with ((rfl | rfl | rfl) | ⟨i, -, rfl | rfl⟩) | ⟨x, -, h⟩
  · exact ⟨rfl, rfl⟩
  · exact ⟨rfl, rfl⟩
  · exact ⟨rfl, rfl⟩
  · exact ⟨rfl, rfl⟩
  · exact ⟨rfl, rfl⟩
  · obtain ⟨e, -, rfl⟩ := List.mem_map.mp h
    exact ⟨rfl, rfl⟩

/-- The rules of the loaded table, part by part. -/
theorem rules_loadedFilter (h : Ruleset.router? g p = .ok r) :
    r.loadedFilter.rules = inputRules p ++
      (⟨forwardChain, [.established], .accept⟩ :: (membersOf p).flatMap jumps) ++
      (membersOf p).flatMap memberRules ++ [r.markerRule] := by
  rw [Ruleset.loadedFilter, router?_eq_ok h]
  simp [routerFilter, inputRules]

variable (hp : p.IsNamed)
include hp

theorem chains_of_mem_membersOf {m : MachineRules} (hm : m ∈ membersOf p) :
    m.chains = .ofLabel m.label :=
  hp.chains_eq m (List.mem_of_mem_filter (List.mem_of_mem_filter hm))

theorem nodup_labels_membersOf : ((membersOf p).map (·.label)).Nodup :=
  hp.nodup_labels.sublist ((List.filter_sublist.trans List.filter_sublist).map _)

theorem underscore_mem_of_mem_memberRules {q : PacketRule}
    (hq : q ∈ (membersOf p).flatMap memberRules) : '_' ∈ q.chain.toList := by
  obtain ⟨m, hm, hq⟩ := List.mem_flatMap.mp hq
  have hchain := chain_of_mem_memberRules hq
  rw [chains_of_mem_membersOf hp hm] at hchain
  exact ChainNames.underscore_mem m.label hchain

/-- The chains that have no underscore in their names have no rules of machines. -/
theorem filter_memberRules_eq_nil {c : String} (hc : '_' ∉ c.toList) :
    ((membersOf p).flatMap fun m => (memberRules m).filter fun q => q.chain = c) = [] := by
  rw [← List.filter_flatMap]
  refine filter_chain_eq_nil fun q hq heq => hc ?_
  rw [← heq]
  exact underscore_mem_of_mem_memberRules hp hq

omit hp in
/-- The rules of a chain, part by part. -/
theorem rulesOf_loadedFilter (h : Ruleset.router? g p = .ok r) (c : String) :
    r.loadedFilter.rulesOf c =
      (if inputChain = c then inputRules p else []) ++
        (if forwardChain = c then
          ⟨forwardChain, [.established], .accept⟩ :: (membersOf p).flatMap jumps
        else []) ++
        ((membersOf p).flatMap fun m => (memberRules m).filter fun q => q.chain = c) ++
        if markerChain = c then [r.markerRule] else [] := by
  have hmarker : ∀ q ∈ [r.markerRule], q.chain = markerChain :=
    List.forall_mem_singleton.mpr rfl
  rw [Table.rulesOf, rules_loadedFilter h, List.filter_append, List.filter_append,
    List.filter_append, filter_chain_of_forall fun q hq => (chain_of_mem_inputRules hq).1,
    filter_chain_of_forall chain_of_mem_forwardRules, filter_chain_of_forall hmarker,
    List.filter_flatMap]

/-- The chain for traffic to the router itself has the rules of the router alone. -/
theorem rulesOf_inputChain (h : Ruleset.router? g p = .ok r) :
    r.loadedFilter.rulesOf inputChain = inputRules p := by
  rw [rulesOf_loadedFilter h, filter_memberRules_eq_nil hp (by decide), if_pos rfl,
    if_neg (by decide), if_neg (by decide), List.append_nil, List.append_nil, List.append_nil]

/-- The forwarding chain lets known connections through and jumps into the chains of machines. -/
theorem rulesOf_forwardChain (h : Ruleset.router? g p = .ok r) :
    r.loadedFilter.rulesOf forwardChain =
      ⟨forwardChain, [.established], .accept⟩ :: (membersOf p).flatMap jumps := by
  rw [rulesOf_loadedFilter h, filter_memberRules_eq_nil hp (by decide), if_neg (by decide),
    if_pos rfl, if_neg (by decide), List.nil_append, List.append_nil, List.append_nil]

omit hp in
/-- A chain with an underscore has only rules of machines. -/
theorem rulesOf_of_underscore (h : Ruleset.router? g p = .ok r) {c : String}
    (hc : '_' ∈ c.toList) :
    r.loadedFilter.rulesOf c =
      (membersOf p).flatMap fun m => (memberRules m).filter fun q => q.chain = c := by
  have hne : ∀ d : String, '_' ∉ d.toList → d ≠ c := fun d hd heq => hd (heq ▸ hc)
  rw [rulesOf_loadedFilter h, if_neg (hne inputChain (by decide)),
    if_neg (hne forwardChain (by decide)), if_neg (hne markerChain (by decide)),
    List.nil_append, List.nil_append, List.append_nil]

/-- The chain of a machine has the rules of that machine alone. -/
theorem rulesOf_memberChain (h : Ruleset.router? g p = .ok r) {m : MachineRules}
    (hm : m ∈ membersOf p) {c : String} (hc : c ∈ m.chains.all) :
    r.loadedFilter.rulesOf c = (memberRules m).filter fun q => q.chain = c := by
  rw [chains_of_mem_membersOf hp hm] at hc
  rw [rulesOf_of_underscore h (ChainNames.underscore_mem m.label hc)]
  have hpiece : ∀ n ∈ membersOf p, ((memberRules n).filter fun q => q.chain = c) =
      if n.label = m.label then (memberRules n).filter fun q => q.chain = c else [] := by
    intro n hn
    split
    · rfl
    · next hlabel =>
      refine filter_chain_eq_nil fun q hq heq => hlabel ?_
      have hchain := chain_of_mem_memberRules hq
      rw [chains_of_mem_membersOf hp hn, heq] at hchain
      exact ChainNames.label_unique hchain hc
  rw [List.flatMap_congr hpiece]
  exact flatMap_of_nodup_key (nodup_labels_membersOf hp) hm

/-- The chain towards a machine accepts what its services and its sources say. -/
theorem rulesOf_ingress (h : Ruleset.router? g p = .ok r) {m : MachineRules}
    (hm : m ∈ membersOf p) :
    r.loadedFilter.rulesOf m.chains.ingress = m.towards.flatMap (acceptFrom m.chains.ingress) := by
  have hchains := chains_of_mem_membersOf hp hm
  have hforward : m.chains.forward ≠ m.chains.ingress := by
    rw [hchains]
    exact (ChainNames.ingress_ne_forward _ _).symm
  have hegress : m.chains.egress ≠ m.chains.ingress := by
    rw [hchains]
    exact (ChainNames.ingress_ne_egress _ _).symm
  rw [rulesOf_memberChain hp h hm (by simp [ChainNames.all]), filter_memberRules,
    if_pos rfl, if_neg hforward, if_neg hegress, List.append_nil, List.append_nil]

/-- The chain of forwarded traffic from a machine accepts what goes to its destinations. -/
theorem rulesOf_forward (h : Ruleset.router? g p = .ok r) {m : MachineRules}
    (hm : m ∈ membersOf p) :
    r.loadedFilter.rulesOf m.chains.forward = m.forward.flatMap (acceptTo m.chains.forward) := by
  have hchains := chains_of_mem_membersOf hp hm
  have hingress : m.chains.ingress ≠ m.chains.forward := by
    rw [hchains]
    exact ChainNames.ingress_ne_forward _ _
  have hegress : m.chains.egress ≠ m.chains.forward := by
    rw [hchains]
    exact (ChainNames.forward_ne_egress _ _).symm
  rw [rulesOf_memberChain hp h hm (by simp [ChainNames.all]), filter_memberRules,
    if_neg hingress, if_pos rfl, if_neg hegress, List.nil_append, List.append_nil]

/-- The chain of a machine's own traffic drops first what a throttled machine sends too much. -/
theorem rulesOf_egress (h : Ruleset.router? g p = .ok r) {m : MachineRules}
    (hm : m ∈ membersOf p) :
    r.loadedFilter.rulesOf m.chains.egress =
      throttleRules m ++ m.egress.flatMap (acceptTo m.chains.egress) := by
  have hchains := chains_of_mem_membersOf hp hm
  have hingress : m.chains.ingress ≠ m.chains.egress := by
    rw [hchains]
    exact ChainNames.ingress_ne_egress _ _
  have hforward : m.chains.forward ≠ m.chains.egress := by
    rw [hchains]
    exact ChainNames.forward_ne_egress _ _
  rw [rulesOf_memberChain hp h hm (by simp [ChainNames.all]), filter_memberRules,
    if_neg hingress, if_neg hforward, if_pos rfl, List.nil_append, List.nil_append]

end Router

end NetworkCompiler.Firewall
