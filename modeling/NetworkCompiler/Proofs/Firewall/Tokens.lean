import NetworkCompiler.Firewall.Ruleset
import NetworkCompiler.Proofs.Firewall.RouterChains
import NetworkCompiler.Proofs.Text.Words

/-!
# Tokens of rules

The tokens that a table of packet rules determines, rule by rule (`PacketRule.tokens`,
`Table.tokens`), and the document as lines of them (`Ruleset.content_eq`). A rule takes over names
from elsewhere : of interfaces, of chains, and of hosts. If all but the names of hosts are words
(`Table.IsSpelled`), the document is read back as its tokens exactly if the names of hosts are words
too (`Ruleset.isReadBack_iff`).
-/

namespace NetworkCompiler

open Ipv4 (Address Block)
open Text (IsWord inLine behindSpaces behindSpaces_append toList_behindSpaces toList_inLine_cons)
open Text.Chars (IsSolid)

/-! ## Words -/

theorem Ipv4.Address.isWord_text (a : Address) : IsWord a.text := by
  have hoctets : ∀ v ∈ a.octets.map toString, IsWord v := by
    intro v hv
    obtain ⟨n, -, rfl⟩ := List.mem_map.mp hv
    exact Text.isWord_toString n
  exact Text.isWord_joinWith (by decide) hoctets

theorem Ipv4.Address.isLine_text (a : Address) : Text.IsLine a.text :=
  Text.isLine_of_isSolid a.isWord_text.2

theorem Ipv4.Block.isWord_text (b : Block) : IsWord b.text := by
  have htext : b.text = b.network.text ++ ("/" ++ toString b.length) := by
    rw [text, ← String.append_assoc]
    rfl
  have hlength : IsWord ("/" ++ toString b.length) :=
    Text.isWord_append (by decide) (Text.isWord_toString b.length)
  rw [htext]
  exact b.network.isWord_text.append hlength.2

theorem PortSet.isWord_joined {ports : PortSet} (h : ports.ports ≠ []) : IsWord ports.joined := by
  have hnumbers : ∀ v ∈ ports.ports.map toString, IsWord v := by
    intro v hv
    obtain ⟨n, -, rfl⟩ := List.mem_map.mp hv
    exact Text.isWord_toString n
  obtain ⟨n, ns, hports⟩ := List.exists_cons_of_ne_nil h
  rw [hports] at hnumbers
  rw [joined, hports]
  exact Text.isWord_joinWith (by decide) hnumbers

namespace Firewall

/-! ## Tokens -/

/-- The tokens of an end. -/
def endpointTokens (flag : String) : Endpoint → List String
  | .any => []
  | e => [flag, e.text]

/-- The tokens of a set of ports. -/
def portsTokens (ports : PortSet) : List String :=
  match ports.ports with
  | [] => []
  | [_] => ["--dport", ports.joined]
  | _ => ["-m", "multiport", "--dports", ports.joined]

/-- The tokens of a condition. -/
def Condition.tokens : Condition → List String
  | into iface => ["-i", iface]
  | outOf iface => ["-o", iface]
  | fromAddress a => ["-s", a.text]
  | toAddress a => ["-d", a.text]
  | source e => endpointTokens "-s" e
  | destination e => endpointTokens "-d" e
  | service protocol ports => "-p" :: protocol.word :: portsTokens ports
  | icmp => ["-p", "icmp"]
  | established => ["-m", "conntrack", "--ctstate", "RELATED,ESTABLISHED"]
  | aboveLimit => ["-m", "hashlimit", "--hashlimit-above", "1mb/s", "--hashlimit-burst", "2mb",
      "--hashlimit-mode", "srcip", "--hashlimit-name", "throttle"]
  | revision fingerprint => ["-m", "comment", "--comment", "\"revision", fingerprint ++ "\""]

/-- The tokens of a verdict. -/
def Verdict.tokens : Verdict → List String
  | redirect target => ["DNAT", "--to-destination", target.text]
  | v => [v.text]

/-- The tokens of a rule. -/
def PacketRule.tokens (q : PacketRule) : List String :=
  "-A" :: q.chain :: (q.conditions.flatMap Condition.tokens ++ "-j" :: q.verdict.tokens)

/-- The tokens of a chain. -/
def Chain.tokens (c : Chain) : List String :=
  [":" ++ c.name, (c.policy.map Verdict.text).getD "-", "[0:0]"]

/-- The tokens of a table, line by line. -/
def Table.tokens (t : Table) : List (List String) :=
  ["*" ++ t.name] ::
    (t.chains.map Chain.tokens ++ t.rules.map PacketRule.tokens ++ [[commitLine]])

/-- The tokens of a document for a machine with a label, line by line. `kind` says whether the
machine is the router. -/
def Ruleset.tokens (r : Ruleset) (label kind : String) : List (List String) :=
  ["#", label ++ ":", kind, "ruleset"] ::
    ((r.nat.map Table.tokens).getD [] ++ r.loadedFilter.tokens)

/-- A document that is read back as its tokens, line by line and word by word. -/
def Ruleset.IsReadBack (r : Ruleset) (label kind : String) : Prop :=
  (Text.lines r.document.content).map Text.words = r.tokens label kind

/-! ## Lines of tokens -/

theorem endpointText_eq (flag : String) (e : Endpoint) :
    endpointText flag e = behindSpaces (endpointTokens flag e) := by
  have htokens : " " ++ flag ++ " " ++ e.text = behindSpaces [flag, e.text] := by
    rw [← String.toList_inj, toList_behindSpaces]
    simp
  cases e with
  | any => rfl
  | net block => exact htokens
  | host name => exact htokens

theorem portsText_eq (ports : PortSet) : portsText ports = behindSpaces (portsTokens ports) := by
  unfold portsText portsTokens
  rw [← String.toList_inj, toList_behindSpaces]
  match ports.ports with
  | [] => rfl
  | [_] => simp
  | _ :: _ :: _ => simp

theorem Condition.text_eq (c : Condition) : c.text = behindSpaces c.tokens := by
  unfold text tokens
  cases c with
  | source e => exact endpointText_eq "-s" e
  | destination e => exact endpointText_eq "-d" e
  | service protocol ports =>
    dsimp only
    rw [portsText_eq, ← String.toList_inj, toList_behindSpaces]
    simp [toList_behindSpaces]
  | icmp => decide
  | established => decide
  | aboveLimit => decide
  | into iface =>
    rw [← String.toList_inj, toList_behindSpaces]
    simp
  | outOf iface =>
    rw [← String.toList_inj, toList_behindSpaces]
    simp
  | fromAddress a =>
    rw [← String.toList_inj, toList_behindSpaces]
    simp
  | toAddress a =>
    rw [← String.toList_inj, toList_behindSpaces]
    simp
  | revision fingerprint =>
    rw [← String.toList_inj, toList_behindSpaces]
    simp

theorem Verdict.text_eq (v : Verdict) : " " ++ v.text = behindSpaces v.tokens := by
  have hsingle : ∀ w : String, " " ++ w = behindSpaces [w] := by
    intro w
    simp [behindSpaces]
  cases v with
  | redirect target =>
    unfold text tokens
    rw [← String.toList_inj, toList_behindSpaces]
    simp
  | accept => exact hsingle "ACCEPT"
  | drop => exact hsingle "DROP"
  | back => exact hsingle "RETURN"
  | masquerade => exact hsingle "MASQUERADE"
  | jump chain => exact hsingle chain

theorem join_text_eq (cs : List Condition) :
    String.join (cs.map Condition.text) = behindSpaces (cs.flatMap Condition.tokens) := by
  induction cs with
  | nil => rfl
  | cons c cs ih =>
    simp only [List.map_cons, String.join_cons, ih, List.flatMap_cons, behindSpaces_append,
      c.text_eq]

theorem PacketRule.line_eq (q : PacketRule) : q.line = inLine q.tokens := by
  have hverdict : (" " ++ q.verdict.text).toList = (behindSpaces q.verdict.tokens).toList := by
    rw [q.verdict.text_eq]
  rw [String.toList_append] at hverdict
  rw [← String.toList_inj, tokens, toList_inLine_cons]
  simp [line, join_text_eq, toList_behindSpaces] at hverdict ⊢
  exact hverdict

theorem Chain.line_eq (c : Chain) : c.line = inLine c.tokens := by
  rw [← String.toList_inj, tokens, toList_inLine_cons]
  simp [line]

theorem Table.lines_eq (t : Table) : t.lines = t.tokens.map inLine := by
  have hchains : t.chains.map Chain.line = (t.chains.map Chain.tokens).map inLine := by
    rw [List.map_map]
    exact List.map_congr_left fun c _ => c.line_eq
  have hrules : t.rules.map PacketRule.line = (t.rules.map PacketRule.tokens).map inLine := by
    rw [List.map_map]
    exact List.map_congr_left fun q _ => q.line_eq
  rw [lines, openLines, hchains, hrules]
  simp [tokens, inLine, behindSpaces]

namespace Ruleset

variable {r : Ruleset} {label kind : String}
  (htitle : r.title = label ++ ": " ++ kind ++ " ruleset")

include htitle in
/-- A document is the lines of its tokens. -/
theorem content_eq : r.document.content = Text.unlines ((r.tokens label kind).map inLine) := by
  have htitle : "# " ++ r.title = inLine ["#", label ++ ":", kind, "ruleset"] := by
    rw [htitle, ← String.toList_inj, toList_inLine_cons]
    simp
  have hnat : (r.nat.map Table.lines).getD [] = ((r.nat.map Table.tokens).getD []).map inLine := by
    cases r.nat with
    | none => rfl
    | some t => exact t.lines_eq
  rw [content_document, leadingLines, hnat, r.loadedFilter.lines_eq, htitle, tokens]
  simp

end Ruleset

/-! ## Names -/

/-- The name of a host that a condition takes over. -/
def Condition.host? : Condition → Option String
  | source (.host name) => some name
  | destination (.host name) => some name
  | _ => none

/-- The names of hosts in a table. -/
def Table.hostNames (t : Table) : List String :=
  t.rules.flatMap fun q => q.conditions.filterMap Condition.host?

/-- The names of hosts in a document. -/
def Ruleset.hostNames (r : Ruleset) : List String :=
  (r.nat.map Table.hostNames).getD [] ++ r.loadedFilter.hostNames

/-- A condition whose interface is a word, and whose fingerprint has no blanks. -/
def Condition.IsSpelled : Condition → Prop
  | into iface => IsWord iface
  | outOf iface => IsWord iface
  | revision fingerprint => IsSolid fingerprint.toList
  | _ => True

/-- A verdict whose chain is a word. -/
def Verdict.IsSpelled : Verdict → Prop
  | jump chain => IsWord chain
  | _ => True

/-- A rule whose names are words, those of hosts apart. -/
structure PacketRule.IsSpelled (q : PacketRule) : Prop where
  chain : IsWord q.chain
  conditions : ∀ c ∈ q.conditions, c.IsSpelled
  verdict : q.verdict.IsSpelled

/-- A table whose names are words, those of hosts apart. -/
structure Table.IsSpelled (t : Table) : Prop where
  name : IsSolid t.name.toList
  chains : ∀ c ∈ t.chains, IsSolid c.name.toList ∧ ∀ v ∈ c.policy, IsWord v.text
  rules : ∀ q ∈ t.rules, q.IsSpelled

/-! ## Reading back -/

theorem isWord_of_mem_endpointTokens {flag v : String} {e : Endpoint} (hflag : IsWord flag)
    (hv : v ∈ endpointTokens flag e) : IsWord v ∨ e = .host v := by
  cases e with
  | any => cases hv
  | net block =>
    simp only [endpointTokens, List.mem_cons, List.not_mem_nil, or_false] at hv
    rcases hv with rfl | rfl
    · exact Or.inl hflag
    · exact Or.inl (Block.isWord_text block)
  | host name =>
    simp only [endpointTokens, List.mem_cons, List.not_mem_nil, or_false] at hv
    rcases hv with rfl | rfl
    · exact Or.inl hflag
    · exact Or.inr rfl

theorem isWord_of_mem_portsTokens {ports : PortSet} {v : String} (hv : v ∈ portsTokens ports) :
    IsWord v := by
  have hjoined : ports.ports ≠ [] → IsWord ports.joined := PortSet.isWord_joined
  unfold portsTokens at hv
  split at hv
  · cases hv
  · next hports =>
    simp only [List.mem_cons, List.not_mem_nil, or_false] at hv
    rcases hv with rfl | rfl
    · decide
    · exact hjoined (by simp [hports])
  · next hnil _ =>
    simp only [List.mem_cons, List.not_mem_nil, or_false] at hv
    rcases hv with rfl | rfl | rfl | rfl
    · decide
    · decide
    · decide
    · exact hjoined hnil

/-- The tokens of a condition are words, but for the name of a host. -/
theorem Condition.isWord_of_mem_tokens {c : Condition} (h : c.IsSpelled) {v : String}
    (hv : v ∈ c.tokens) : IsWord v ∨ c.host? = some v := by
  have hpair : ∀ {flag text : String}, IsWord flag → IsWord text → v ∈ [flag, text] →
      IsWord v := by
    intro flag text hflag htext hv
    simp only [List.mem_cons, List.not_mem_nil, or_false] at hv
    rcases hv with rfl | rfl
    · exact hflag
    · exact htext
  cases c with
  | into iface => exact Or.inl (hpair (by decide) h hv)
  | outOf iface => exact Or.inl (hpair (by decide) h hv)
  | fromAddress a => exact Or.inl (hpair (by decide) a.isWord_text hv)
  | toAddress a => exact Or.inl (hpair (by decide) a.isWord_text hv)
  | source e =>
    refine (isWord_of_mem_endpointTokens (by decide) hv).imp_right ?_
    rintro rfl
    rfl
  | destination e =>
    refine (isWord_of_mem_endpointTokens (by decide) hv).imp_right ?_
    rintro rfl
    rfl
  | service protocol ports =>
    simp only [tokens, List.mem_cons] at hv
    rcases hv with rfl | rfl | hv
    · exact Or.inl (by decide)
    · exact Or.inl (by cases protocol <;> decide)
    · exact Or.inl (isWord_of_mem_portsTokens hv)
  | icmp => exact Or.inl (hpair (by decide) (by decide) hv)
  | established =>
    have hwords : ∀ w ∈ tokens .established, IsWord w := by decide
    exact Or.inl (hwords v hv)
  | aboveLimit =>
    have hwords : ∀ w ∈ tokens .aboveLimit, IsWord w := by decide
    exact Or.inl (hwords v hv)
  | revision fingerprint =>
    have hfingerprint : IsWord (fingerprint ++ "\"") := Text.isWord_append h (by decide)
    simp only [tokens, List.mem_cons, List.not_mem_nil, or_false] at hv
    rcases hv with rfl | rfl | rfl | rfl | rfl
    · exact Or.inl (by decide)
    · exact Or.inl (by decide)
    · exact Or.inl (by decide)
    · exact Or.inl (by decide)
    · exact Or.inl hfingerprint

theorem Verdict.isWord_of_mem_tokens {w : Verdict} (h : w.IsSpelled) {v : String}
    (hv : v ∈ w.tokens) : IsWord v := by
  cases w with
  | redirect target =>
    simp only [tokens, List.mem_cons, List.not_mem_nil, or_false] at hv
    rcases hv with rfl | rfl | rfl
    · decide
    · decide
    · exact target.isWord_text
  | jump chain =>
    rw [List.mem_singleton.mp hv]
    exact h
  | accept =>
    rw [List.mem_singleton.mp hv]
    decide
  | drop =>
    rw [List.mem_singleton.mp hv]
    decide
  | back =>
    rw [List.mem_singleton.mp hv]
    decide
  | masquerade =>
    rw [List.mem_singleton.mp hv]
    decide

/-- The tokens of a rule are words, but for the names of hosts. -/
theorem PacketRule.isWord_of_mem_tokens {q : PacketRule} (h : q.IsSpelled) {v : String}
    (hv : v ∈ q.tokens) : IsWord v ∨ v ∈ q.conditions.filterMap Condition.host? := by
  simp only [tokens, List.mem_cons, List.mem_append, List.mem_flatMap] at hv
  rcases hv with rfl | rfl | ⟨c, hc, hv⟩ | rfl | hv
  · exact Or.inl (by decide)
  · exact Or.inl h.chain
  · refine (Condition.isWord_of_mem_tokens (h.conditions c hc) hv).imp_right fun hhost => ?_
    exact List.mem_filterMap.mpr ⟨c, hc, hhost⟩
  · exact Or.inl (by decide)
  · exact Or.inl (Verdict.isWord_of_mem_tokens h.verdict hv)

theorem PacketRule.mem_tokens_of_host {q : PacketRule} {v : String}
    (hv : v ∈ q.conditions.filterMap Condition.host?) : v ∈ q.tokens := by
  obtain ⟨c, hc, hhost⟩ := List.mem_filterMap.mp hv
  have hmem : v ∈ c.tokens := by
    unfold Condition.host? at hhost
    split at hhost
    · cases hhost
      exact List.mem_cons_of_mem _ List.mem_cons_self
    · cases hhost
      exact List.mem_cons_of_mem _ List.mem_cons_self
    · cases hhost
  refine List.mem_cons_of_mem _ (List.mem_cons_of_mem _ (List.mem_append_left _ ?_))
  exact List.mem_flatMap_of_mem hc hmem

/-- The tokens of a table are words, but for the names of hosts. -/
theorem Table.isWord_of_mem_tokens {t : Table} (h : t.IsSpelled) {ws : List String}
    (hws : ws ∈ t.tokens) {v : String} (hv : v ∈ ws) : IsWord v ∨ v ∈ t.hostNames := by
  simp only [tokens, List.mem_cons, List.mem_append, List.mem_map, List.not_mem_nil,
    or_false] at hws
  rcases hws with rfl | (⟨c, hc, rfl⟩ | ⟨q, hq, rfl⟩) | rfl
  · rw [List.mem_singleton.mp hv]
    exact Or.inl (IsWord.append (by decide) h.name)
  · obtain ⟨hname, hpolicy⟩ := h.chains c hc
    simp only [Chain.tokens, List.mem_cons, List.not_mem_nil, or_false] at hv
    rcases hv with rfl | rfl | rfl
    · exact Or.inl (IsWord.append (by decide) hname)
    · cases hv : c.policy with
      | none => exact Or.inl (by decide)
      | some w => exact Or.inl (hpolicy w hv)
    · exact Or.inl (by decide)
  · refine (PacketRule.isWord_of_mem_tokens (h.rules q hq) hv).imp_right fun hhost => ?_
    exact List.mem_flatMap_of_mem hq hhost
  · rw [List.mem_singleton.mp hv]
    exact Or.inl (by decide)

theorem Table.exists_tokens_of_host {t : Table} {v : String} (hv : v ∈ t.hostNames) :
    ∃ ws ∈ t.tokens, v ∈ ws := by
  obtain ⟨q, hq, hhost⟩ := List.mem_flatMap.mp hv
  refine ⟨q.tokens, List.mem_cons_of_mem _ (List.mem_append_left _ (List.mem_append_right _ ?_)),
    PacketRule.mem_tokens_of_host hhost⟩
  exact List.mem_map_of_mem hq

/-- Every name of a host in a document is one of its tokens. -/
theorem Ruleset.exists_tokens_of_host {r : Ruleset} {label kind v : String}
    (hv : v ∈ r.hostNames) : ∃ ws ∈ r.tokens label kind, v ∈ ws := by
  rcases List.mem_append.mp hv with hv | hv
  · cases hnat : r.nat with
    | none =>
      rw [hnat] at hv
      cases hv
    | some t =>
      rw [hnat] at hv
      obtain ⟨ws, hws, hmem⟩ := Table.exists_tokens_of_host hv
      refine ⟨ws, List.mem_cons_of_mem _ (List.mem_append_left _ ?_), hmem⟩
      rw [hnat]
      exact hws
  · obtain ⟨ws, hws, hmem⟩ := Table.exists_tokens_of_host hv
    exact ⟨ws, List.mem_cons_of_mem _ (List.mem_append_right _ hws), hmem⟩

/-- What is read back holds words, so the names of hosts are words if a document is read back. -/
theorem Ruleset.IsReadBack.isWord_of_host {r : Ruleset} {label kind v : String}
    (h : r.IsReadBack label kind) (hv : v ∈ r.hostNames) : IsWord v := by
  obtain ⟨ws, hws, hmem⟩ := exists_tokens_of_host hv
  rw [← h] at hws
  obtain ⟨l, -, rfl⟩ := List.mem_map.mp hws
  exact Text.isWord_of_mem_words hmem

/-- A document whose names are words, those of hosts apart, is read back as its tokens exactly if
the names of hosts are words too. -/
theorem Ruleset.isReadBack_iff {r : Ruleset} {label kind : String}
    (htitle : r.title = label ++ ": " ++ kind ++ " ruleset") (hlabel : IsSolid label.toList)
    (hkind : IsWord kind) (hnat : ∀ t ∈ r.nat, t.IsSpelled) (hfilter : r.loadedFilter.IsSpelled) :
    r.IsReadBack label kind ↔ ∀ name ∈ r.hostNames, IsWord name := by
  constructor
  · intro hread name hname
    exact hread.isWord_of_host hname
  · intro hnames
    rw [IsReadBack, content_eq htitle]
    refine Text.words_lines_inLine fun ws hws v hv => ?_
    rcases List.mem_cons.mp hws with rfl | hws
    · simp only [List.mem_cons, List.not_mem_nil, or_false] at hv
      rcases hv with rfl | rfl | rfl | rfl
      · decide
      · exact Text.isWord_append hlabel (by decide)
      · exact hkind
      · decide
    rcases List.mem_append.mp hws with hws | hws
    · cases hsome : r.nat with
      | none =>
        rw [hsome] at hws
        cases hws
      | some t =>
        rw [hsome] at hws
        rcases Table.isWord_of_mem_tokens (hnat t hsome) hws hv with hword | hhost
        · exact hword
        · refine hnames v (List.mem_append_left _ ?_)
          rw [hsome]
          exact hhost
    · rcases Table.isWord_of_mem_tokens hfilter hws hv with hword | hhost
      · exact hword
      · exact hnames v (List.mem_append_right _ hhost)

end Firewall

end NetworkCompiler
