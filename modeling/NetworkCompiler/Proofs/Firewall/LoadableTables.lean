import NetworkCompiler.Proofs.Firewall.Tokens
import NetworkCompiler.Proofs.Ipv4.Addresses

/-!
# Loadable tables

A table of packet rules as a kernel loads it, line by line : a line may append to a chain or jump
into one only if a line above it declared that chain, and no chain is declared twice
(`IsLoadable`). A table that declares all that its rules name (`Table.IsClosed`) is written as such
lines (`Table.IsClosed.isLoadable_body`), whatever the interfaces and hosts in it are called.
-/

namespace NetworkCompiler.Firewall

open Ipv4 (Address)

/-! ## Reading lines -/

/-- The chain that a line declares. -/
def declared? : List String → Option String
  | w :: _ => if w.toList.head? = some ':' then some (String.ofList w.toList.tail) else none
  | [] => none

/-- The chain that a line appends a rule to. -/
def appended? : List String → Option String
  | "-A" :: chain :: _ => some chain
  | _ => none

/-- The target on a line : the word behind the last `-j`. An interface may have that name too, but
the conditions stand in front of the target. -/
def target? : List String → Option String
  | [] => none
  | w :: ws => (target? ws).or (if w = "-j" then ws.head? else none)

/-- The targets that are no chains. -/
def plainTargets : List String :=
  ["ACCEPT", "DROP", "RETURN", "DNAT", "MASQUERADE"]

/-- The chains that have to be there for a line. -/
def neededChains (ws : List String) : List String :=
  (appended? ws).toList ++ (target? ws).toList.filter (· ∉ plainTargets)

/-- The lines of a table, word by word, as a kernel loads them. -/
structure IsLoadable (table : List (List String)) : Prop where
  /-- No line ends the table or begins another. -/
  inner : ∀ ws ∈ table, ws ≠ [commitLine] ∧ ∀ w ∈ ws.head?, w.toList.head? ≠ some '*'
  /-- A chain that a line needs was declared once above it, and is not declared again. -/
  needed : ∀ before ws after, table = before ++ ws :: after → ∀ chain ∈ neededChains ws,
    (before.filterMap declared?).count chain = 1 ∧ chain ∉ after.filterMap declared?

theorem target?_append {v : String} {ws : List String} (h : "-j" ∉ v :: ws) (before : List String) :
    target? (before ++ "-j" :: v :: ws) = some v := by
  have hnone : ∀ {vs : List String}, "-j" ∉ vs → target? vs = none := by
    intro vs hvs
    induction vs with
    | nil => rfl
    | cons u us ih =>
      rw [List.mem_cons, not_or] at hvs
      rw [target?, ih hvs.2, if_neg (Ne.symm hvs.1)]
      rfl
  induction before with
  | nil =>
    rw [List.nil_append, target?, hnone h, if_pos rfl]
    rfl
  | cons u us ih =>
    rw [List.cons_append, target?, ih]
    rfl

/-! ## Tables -/

/-- The lines of a table, without the ones that begin and end it. -/
def Table.body (t : Table) : List (List String) :=
  t.chains.map Chain.tokens ++ t.rules.map PacketRule.tokens

/-- The chains that a table declares. -/
def Table.chainNames (t : Table) : List String :=
  t.chains.map (·.name)

/-- A table that declares each of its chains once, and all that its rules name. -/
structure Table.IsClosed (t : Table) : Prop where
  nodup : t.chainNames.Nodup
  policy : ∀ c ∈ t.chains, c.policy ∈ [none, some .accept, some .drop]
  chain : ∀ q ∈ t.rules, q.chain ∈ t.chainNames
  jump : ∀ q ∈ t.rules, ∀ c, q.verdict = .jump c → c ∈ t.chainNames ∧ c ≠ "-j"

theorem declared?_chain (c : Chain) : declared? c.tokens = some c.name := by
  simp [declared?, Chain.tokens]

theorem declared?_rule (q : PacketRule) : declared? q.tokens = none := by
  have hhead : "-A".toList.head? ≠ some ':' := by
    decide
  rw [PacketRule.tokens, declared?, if_neg hhead]

theorem neededChains_chain {c : Chain} (h : c.policy ∈ [none, some .accept, some .drop]) :
    neededChains c.tokens = [] := by
  have hcolon : ∀ s : String, s.toList.head? ≠ some ':' → ":" ++ c.name ≠ s := by
    rintro s hs rfl
    simp at hs
  have hpolicy : target? [(c.policy.map Verdict.text).getD "-", "[0:0]"] = none := by
    simp only [List.mem_cons, List.not_mem_nil, or_false] at h
    rcases h with h | h | h <;> rw [h] <;> decide
  have happended : appended? c.tokens = none := by
    unfold appended? Chain.tokens
    split
    · next heq => exact absurd (List.cons.inj heq).1 (hcolon "-A" (by decide))
    · rfl
  have htarget : target? c.tokens = none := by
    rw [Chain.tokens, target?, hpolicy, if_neg (hcolon "-j" (by decide))]
    rfl
  rw [neededChains, happended, htarget]
  rfl

theorem address_ne_flag (a : Address) : "-j" ≠ a.text := by
  intro h
  have hdash : '-' ∈ a.text.toList := h ▸ (by decide : '-' ∈ "-j".toList)
  exact absurd (Address.isDigit_of_mem_text hdash) (by decide)

/-- The target of a rule is the first word of its verdict. -/
theorem target?_rule {q : PacketRule} (h : ∀ c, q.verdict = .jump c → c ≠ "-j") :
    target? q.tokens = q.verdict.tokens.head? := by
  have htokens : ∀ {v ws}, q.verdict.tokens = v :: ws → "-j" ∉ v :: ws →
      target? q.tokens = q.verdict.tokens.head? := by
    intro v ws hverdict hflag
    rw [PacketRule.tokens, hverdict]
    exact target?_append hflag ("-A" :: q.chain :: q.conditions.flatMap Condition.tokens)
  cases hv : q.verdict with
  | redirect target =>
    rw [hv] at htokens
    exact htokens rfl (by simp [address_ne_flag])
  | jump c =>
    rw [hv] at htokens
    exact htokens rfl fun hflag => h c hv (List.mem_singleton.mp hflag).symm
  | accept | drop | back | masquerade =>
    rw [hv] at htokens
    exact htokens rfl (by decide)

/-- A verdict whose target is a chain is a jump. -/
theorem eq_jump_of_head? {v : Verdict} {chain : String} (h : v.tokens.head? = some chain)
    (hchain : chain ∉ plainTargets) : v = .jump chain := by
  cases v with
  | jump c => exact congrArg Verdict.jump (Option.some.inj h)
  | redirect | accept | drop | back | masquerade =>
    rw [← Option.some.inj h] at hchain
    exact absurd (by decide) hchain

/-- A line that declares no chain belongs to a rule, and stands behind those that do. -/
theorem Table.exists_rules_of_split {t : Table} {before after : List (List String)}
    {ws : List String} (h : t.body = before ++ ws :: after)
    (hws : ws ∉ t.chains.map Chain.tokens) :
    ∃ rules q rest, t.rules = rules ++ q :: rest ∧
      before = t.chains.map Chain.tokens ++ rules.map PacketRule.tokens ∧
      ws = q.tokens ∧ after = rest.map PacketRule.tokens := by
  have hbehind : ∃ between, before = t.chains.map Chain.tokens ++ between ∧
      t.rules.map PacketRule.tokens = between ++ ws :: after := by
    rcases List.append_eq_append_iff.mp h with hbehind | ⟨between, hchains, hrules⟩
    · exact hbehind
    · cases between with
      | nil => exact ⟨[], by rw [hchains, List.append_nil, List.append_nil], hrules.symm⟩
      | cons vs between =>
        obtain ⟨rfl, -⟩ := List.cons.inj hrules
        rw [hchains] at hws
        exact absurd (List.mem_append_right _ List.mem_cons_self) hws
  obtain ⟨between, hbefore, hrules⟩ := hbehind
  obtain ⟨rules, behind, heq, rfl, hbehind⟩ := List.map_eq_append_iff.mp hrules
  obtain ⟨q, rest, rfl, rfl, rfl⟩ := List.map_eq_cons_iff.mp hbehind
  exact ⟨rules, q, rest, heq, hbefore, rfl, rfl⟩

namespace Table

theorem filterMap_declared?_chains (cs : List Chain) :
    (cs.map Chain.tokens).filterMap declared? = cs.map (·.name) := by
  rw [List.filterMap_map, ← List.filterMap_eq_map]
  exact List.filterMap_congr fun c _ => declared?_chain c

theorem filterMap_declared?_rules (qs : List PacketRule) :
    (qs.map PacketRule.tokens).filterMap declared? = [] := by
  rw [List.filterMap_map, List.filterMap_eq_nil_iff]
  exact fun q _ => declared?_rule q

/-- The chains that the lines of a table declare are the chains of the table. -/
theorem filterMap_declared? (t : Table) : t.body.filterMap declared? = t.chainNames := by
  rw [body, List.filterMap_append, filterMap_declared?_chains, filterMap_declared?_rules,
    List.append_nil, chainNames]

namespace IsClosed

variable {t : Table} (h : t.IsClosed)
include h

/-- The chains that a rule needs are declared. -/
theorem mem_of_neededChains {q : PacketRule} (hq : q ∈ t.rules) {chain : String}
    (hchain : chain ∈ neededChains q.tokens) : chain ∈ t.chainNames := by
  have hjump := h.jump q hq
  rcases List.mem_append.mp hchain with hchain | hchain
  · have heq : chain = q.chain := by simpa [PacketRule.tokens, appended?] using hchain
    exact heq ▸ h.chain q hq
  · obtain ⟨htarget, hplain⟩ := List.mem_filter.mp hchain
    rw [target?_rule fun c hc => (hjump c hc).2, Option.mem_toList] at htarget
    exact (hjump chain (eq_jump_of_head? htarget (of_decide_eq_true hplain))).1

/-- The lines of a table are loaded if it declares all that its rules name. -/
theorem isLoadable_body : IsLoadable t.body := by
  constructor
  · intro ws hws
    rcases List.mem_append.mp hws with hws | hws
    · obtain ⟨c, -, rfl⟩ := List.mem_map.mp hws
      simp [Chain.tokens]
    · obtain ⟨q, -, rfl⟩ := List.mem_map.mp hws
      simp [PacketRule.tokens]
  · intro before ws after hsplit chain hchain
    have hws : ws ∉ t.chains.map Chain.tokens := by
      intro hws
      obtain ⟨c, hc, rfl⟩ := List.mem_map.mp hws
      rw [neededChains_chain (h.policy c hc)] at hchain
      cases hchain
    obtain ⟨rules, q, rest, hrules, rfl, rfl, rfl⟩ := exists_rules_of_split hsplit hws
    have hq : q ∈ t.rules := by
      rw [hrules]
      exact List.mem_append_right _ List.mem_cons_self
    rw [List.filterMap_append, filterMap_declared?_chains, filterMap_declared?_rules,
      filterMap_declared?_rules, List.append_nil]
    exact ⟨List.count_eq_one_of_mem h.nodup (h.mem_of_neededChains hq hchain), List.not_mem_nil⟩

end IsClosed

end Table

end NetworkCompiler.Firewall
