import Mathlib.Tactic.Common
import NetworkCompiler.Interface

/-!
# Legal interfaces

A check that let an interface through found no rule that it breaks, and changed nothing. The
addresses of a legal interface lie in its declared subnet (`Interface.contains_of_legal`).
`Interface.IsLegal` lists the rules, and an interface breaks none exactly if it keeps them all
(`Interface.fault?_eq_none_iff`).
-/

namespace NetworkCompiler

open Ipv4 (Address Block)

theorem Interface.checked_eq_ok {label : String} {i j : Interface} :
    i.checked label = .ok j ↔ i.fault? = none ∧ i = j := by
  unfold Interface.checked
  split <;> simp_all

theorem Interface.contains_of_legal {i : Interface} (h : i.fault? = none) {w : Block}
    (hw : i.subnet = some w) {a : Address} (ha : a ∈ i.addresses) : w.contains a = true := by
  have hstray : i.strayAddress? = none := by
    unfold Interface.fault? at h
    split at h
    · cases h
    · split at h
      · cases h
      · split at h
        · cases h
        · split at h
          · cases h
          · exact Option.map_eq_none_iff.mp h
  rw [Interface.strayAddress?, hw] at hstray
  simpa using List.find?_eq_none.mp (Option.map_eq_none_iff.mp hstray) a ha

namespace Interface

/-- The rules for interfaces, kind by kind and then for all of them. -/
structure IsLegal (i : Interface) : Prop where
  isName : isName i.name = true
  /-- Addressing that is asked for is not fixed as well. -/
  dhcp : i.kind = .dhcp → i.addresses = [] ∧ i.subnet = none ∧ i.gateway = none
  /-- What only carries others has no address. -/
  carrier : i.kind = .manual ∨ i.kind = .bond → i.addresses = []
  vlan : i.kind = .vlan → ∃ parent id, i.parent = some parent ∧ parent ≠ "" ∧
    i.vlanId = some id ∧ isVlanId id = true
  dummy : i.kind = .dummy → i.requiredForOnline = false
  tunnel : i.kind = .tunnel → i.addresses ≠ []
  members : i.members ≠ [] → i.kind = .bond
  masquerading : i.ipMasquerading = true → i.direction = .wan
  inside : ∀ subnet, i.subnet = some subnet → ∀ a ∈ i.addresses, subnet.contains a = true

/-- The rule of its kind. -/
theorem kindFault?_eq_none_iff {i : Interface} : i.kindFault? = none ↔
    (i.kind = .dhcp → i.addresses = [] ∧ i.subnet = none ∧ i.gateway = none) ∧
    (i.kind = .manual ∨ i.kind = .bond → i.addresses = []) ∧
    (i.kind = .vlan → ∃ parent id, i.parent = some parent ∧ parent ≠ "" ∧
      i.vlanId = some id ∧ isVlanId id = true) ∧
    (i.kind = .dummy → i.requiredForOnline = false) ∧
    (i.kind = .tunnel → i.addresses ≠ []) := by
  unfold kindFault?
  cases hkind : i.kind with
  | vlan =>
    cases hparent : i.parent <;> cases hid : i.vlanId <;> simp
  | dhcp => simp [and_assoc]
  | _ => simp

theorem strayAddress?_eq_none_iff {i : Interface} : i.strayAddress? = none ↔
    ∀ subnet, i.subnet = some subnet → ∀ a ∈ i.addresses, subnet.contains a = true := by
  unfold strayAddress?
  cases hsubnet : i.subnet <;> simp

/-- An interface breaks no rule exactly if it is legal. -/
theorem fault?_eq_none_iff {i : Interface} : i.fault? = none ↔ i.IsLegal := by
  have hkind := kindFault?_eq_none_iff (i := i)
  have hstray := strayAddress?_eq_none_iff (i := i)
  unfold fault?
  constructor
  · intro h
    split at h
    · cases h
    next hname =>
    split at h
    · cases h
    next hnone =>
    split at h
    · cases h
    next hmembers =>
    split at h
    · cases h
    next hmasquerading =>
    obtain ⟨hdhcp, hcarrier, hvlan, hdummy, htunnel⟩ := hkind.mp hnone
    refine ⟨by simpa using hname, hdhcp, hcarrier, hvlan, hdummy, htunnel, ?_, ?_,
      hstray.mp (Option.map_eq_none_iff.mp h)⟩
    · simpa [or_iff_not_imp_left, not_imp_comm] using hmembers
    · simpa using hmasquerading
  · rintro ⟨hname, hdhcp, hcarrier, hvlan, hdummy, htunnel, hmembers, hmasquerading, hinside⟩
    rw [hkind.mpr ⟨hdhcp, hcarrier, hvlan, hdummy, htunnel⟩, hstray.mpr hinside]
    have hmembers : ¬(i.kind ≠ .bond && !i.members.isEmpty) = true := by
      simpa [or_iff_not_imp_left, not_imp_comm] using hmembers
    have hmasquerading : ¬(i.ipMasquerading && i.direction ≠ .wan) = true := by
      simpa using hmasquerading
    simp only [hname, Bool.not_true, if_neg hmembers, if_neg hmasquerading]
    rfl

theorem IsLegal.name_ne_empty {i : Interface} (h : i.IsLegal) : i.name ≠ "" := by
  intro hname
  have hlegal := h.isName
  rw [hname] at hlegal
  revert hlegal
  decide

end Interface

end NetworkCompiler
