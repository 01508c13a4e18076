import Mathlib.Data.List.Count
import Mathlib.Data.List.Forall2
import NetworkCompiler.Proofs.Mac
import NetworkCompiler.Proofs.Network.Consistency

/-!
# Declared hardware addresses

Where the hardware addresses of a network are written (`Description.spelledMacs`), and when two of
them are taken for one. Every interface has the address that its text spells, in the order of the
texts (`areSpelledBy_declaredMacs`), so a network is refused for a hardware address exactly if two
of its texts have one normal form (`macs_normalise`).
-/

namespace NetworkCompiler

/-! ## Texts of a description -/

/-- Whether a server's entry makes it a router. -/
def ServerEntry.isRouter (e : ServerEntry) : Bool :=
  e.types.any fun word => Text.lowercase (Text.trim word) = "router"

/-- The hardware addresses of a server as they are written. The one of the server itself is for the
inner interface that it is given when it declares none. -/
def ServerEntry.spelledMacs (e : ServerEntry) : List String :=
  let lan := if e.lan = [] ∧ e.isRouter = false then [e.mac] else e.lan.map (·.2.mac)
  (lan ++ e.wan.map (·.2.mac)).filterMap id

/-- The hardware addresses of a network as they are written. -/
def Description.spelledMacs (d : Description) : List String :=
  (d.servers.flatMap fun e => e.2.spelledMacs) ++ (d.internalDevices.flatMap fun e => e.2.macs) ++
    (d.externalDevices.flatMap fun e => e.2.macs) ++ d.users.flatMap fun e => e.2.macs

/-- Texts that spell addresses, in this order. -/
def AreSpelledBy : List String → List Mac → Prop :=
  List.Forall₂ fun raw mac => Mac.ofText? raw = some mac

/-- A text that may be missing spells an address that may be missing. -/
def IsSpelledBy? : Option String → Option Mac → Prop :=
  Option.Rel fun raw mac => Mac.ofText? raw = some mac

theorem areSpelledBy_filterMap {raws : List (Option String)} {macs : List (Option Mac)}
    (h : List.Forall₂ IsSpelledBy? raws macs) :
    AreSpelledBy (raws.filterMap id) (macs.filterMap id) := by
  induction h with
  | nil => exact .nil
  | cons hmac _ ih =>
    cases hmac with
    | none => exact ih
    | some hmac => exact .cons hmac ih

/-! ## Interfaces -/

section Interfaces

variable {m : Machine} {i : Interface}

theorem isSpelledBy?_of_readMac? {label iface : String} {raw : Option String} {mac : Option Mac}
    (h : readMac? label iface raw = .ok mac) : IsSpelledBy? raw mac := by
  cases raw with
  | none =>
    cases h
    exact .none
  | some raw =>
    rw [readMac?] at h
    split at h
    · next hmac =>
      cases h
      exact .some hmac
    · cases h

theorem isSpelledBy?_of_lanInterface {name : String} {e : InterfaceEntry}
    (h : lanInterface m name e = .ok i) : IsSpelledBy? e.mac i.mac := by
  unfold lanInterface at h
  obtain ⟨mac, hmac, h⟩ := bind_eq_ok.mp h
  obtain ⟨address, -, h⟩ := bind_eq_ok.mp h
  have hspelled := isSpelledBy?_of_readMac? hmac
  cases address with
  | none =>
    obtain ⟨-, rfl⟩ := Interface.checked_eq_ok.mp h
    exact hspelled
  | some a =>
    dsimp only at h
    split at h
    · cases h
    · obtain ⟨_, -, h⟩ := bind_eq_ok.mp h
      obtain ⟨_, -, h⟩ := bind_eq_ok.mp h
      obtain ⟨-, rfl⟩ := Interface.checked_eq_ok.mp h
      exact hspelled

theorem isSpelledBy?_of_wanInterface {name : String} {e : InterfaceEntry}
    (h : wanInterface m name e = .ok i) : IsSpelledBy? e.mac i.mac := by
  unfold wanInterface at h
  obtain ⟨mac, hmac, h⟩ := bind_eq_ok.mp h
  obtain ⟨_, -, h⟩ := bind_eq_ok.mp h
  obtain ⟨-, rfl⟩ := Interface.checked_eq_ok.mp h
  exact isSpelledBy?_of_readMac? hmac

theorem areSpelledBy_deviceInterfacesFrom {label : String} {n : Nat} {seen : List Mac}
    {macs : List String} {lan : List Interface}
    (h : deviceInterfacesFrom label n seen macs = .ok lan) :
    AreSpelledBy macs (lan.filterMap (·.mac)) := by
  induction macs generalizing n seen lan with
  | nil =>
    cases h
    exact .nil
  | cons raw macs ih =>
    unfold deviceInterfacesFrom at h
    split at h
    · cases h
    next mac hmac =>
    split at h
    · cases h
    obtain ⟨i, hi, h⟩ := bind_eq_ok.mp h
    obtain ⟨rest, hrest, h⟩ := bind_eq_ok.mp h
    cases h
    obtain ⟨-, rfl⟩ := Interface.checked_eq_ok.mp hi
    exact .cons hmac (ih hrest)

theorem areSpelledBy_deviceInterfaces {label : String} {macs : List String}
    {lan : List Interface} (h : deviceInterfaces label macs = .ok lan) :
    AreSpelledBy macs (lan.filterMap (·.mac)) := by
  unfold deviceInterfaces at h
  split at h
  · next hempty =>
    obtain ⟨i, hi, rfl⟩ := map_eq_ok.mp h
    obtain ⟨-, rfl⟩ := Interface.checked_eq_ok.mp hi
    rw [List.isEmpty_iff.mp hempty]
    exact .nil
  · exact areSpelledBy_deviceInterfacesFrom h

end Interfaces

/-! ## Machines -/

section Machines

variable {defaultPorts : List Nat} {domain label : String} {m : Machine}

theorem router_mem_of_serverRolesOf? {word : String} {roles : List Role}
    (h : serverRolesOf? word = some roles) :
    Role.router ∈ roles ↔ Text.lowercase (Text.trim word) = "router" := by
  unfold serverRolesOf? at h
  split at h
  all_goals first
    | cases h
      next hword => rw [hword]; decide
    | cases h

theorem router_mem_of_serverRoles {e : ServerEntry} {roles : OrderedSet Role}
    (h : serverRoles label e.types = .ok roles) : Role.router ∈ roles ↔ e.isRouter = true := by
  unfold serverRoles at h
  split at h
  · cases h
  obtain ⟨found, hfound, h⟩ := bind_eq_ok.mp h
  cases h
  have hall : List.Forall₂ (fun word roles => serverRolesOf? word = some roles) e.types found :=
    (mapM_eq_ok.mp hfound).imp fun word roles hword => by
      split at hword
      · next hroles =>
        cases hword
        exact hroles
      · cases hword
  rw [Role.mem_setOf, List.mem_flatten, ServerEntry.isRouter, List.any_eq_true]
  constructor
  · rintro ⟨roles, hroles, hrouter⟩
    obtain ⟨word, hword, hread⟩ := exists_of_mem_right hall hroles
    exact ⟨word, hword, decide_eq_true ((router_mem_of_serverRolesOf? hread).mp hrouter)⟩
  · rintro ⟨word, hword, hrouter⟩
    obtain ⟨roles, hroles, hread⟩ := exists_of_mem_left hall hword
    exact ⟨roles, hroles, (router_mem_of_serverRolesOf? hread).mpr (of_decide_eq_true hrouter)⟩

theorem isSpelledBy?_of_serverLan {e : ServerEntry} {lan : List Interface}
    (hrouter : m.isRouter = e.isRouter) (h : serverLan m e = .ok lan) :
    List.Forall₂ IsSpelledBy?
      (if e.lan = [] ∧ e.isRouter = false then [e.mac] else e.lan.map (·.2.mac))
      (lan.map (·.mac)) := by
  unfold serverLan at h
  obtain ⟨declared, hdeclared, h⟩ := bind_eq_ok.mp h
  have hall := mapM_eq_ok.mp hdeclared
  have hnil : declared = [] ↔ e.lan = [] := by
    rw [← List.length_eq_zero_iff, ← hall.length_eq, List.length_eq_zero_iff]
  split at h
  · next hempty =>
    obtain ⟨i, hi, h⟩ := bind_eq_ok.mp h
    cases h
    have hgiven : e.lan = [] ∧ e.isRouter = false := by simpa [hnil, hrouter] using hempty
    rw [if_pos hgiven]
    exact .cons (isSpelledBy?_of_lanInterface hi) .nil
  · next hnonempty =>
    cases h
    have hgiven : ¬(e.lan = [] ∧ e.isRouter = false) := by simpa [hnil, hrouter] using hnonempty
    rw [if_neg hgiven, List.forall₂_map_left_iff, List.forall₂_map_right_iff]
    exact hall.imp fun entry i hi => isSpelledBy?_of_lanInterface hi

theorem isSpelledBy?_of_serverWan {e : ServerEntry} {wan : List Interface}
    (h : serverWan m e = .ok wan) :
    List.Forall₂ IsSpelledBy? (e.wan.map (·.2.mac)) (wan.map (·.mac)) := by
  rw [List.forall₂_map_left_iff, List.forall₂_map_right_iff]
  refine (mapM_eq_ok.mp h).imp fun entry i hi => ?_
  dsimp only at hi
  split at hi
  · cases hi
  · exact isSpelledBy?_of_wanInterface hi

/-- The interfaces of a server have the addresses of its entry. -/
theorem areSpelledBy_serverInterfaces {e : ServerEntry} {lan wan : List Interface}
    (hrouter : m.isRouter = e.isRouter) (hlan : serverLan m e = .ok lan)
    (hwan : serverWan m e = .ok wan) :
    AreSpelledBy e.spelledMacs ((lan ++ wan).filterMap (·.mac)) := by
  have hboth := areSpelledBy_filterMap
    (List.rel_append (isSpelledBy?_of_serverLan hrouter hlan) (isSpelledBy?_of_serverWan hwan))
  dsimp only at hboth
  rw [← List.map_append, List.filterMap_map] at hboth
  exact hboth

theorem Machine.areSpelledBy_of_ofServer {e : ServerEntry}
    (h : ofServer defaultPorts domain label e = .ok m) :
    AreSpelledBy e.spelledMacs (m.interfaces.filterMap (·.mac)) := by
  obtain ⟨n, -, hroles, -, -, lan, wan, hlan, hwan, h⟩ := exists_steps_of_ofServer h
  obtain ⟨_, _, _, _, _, _, rfl, -⟩ := exists_rules_of_withFirewall h
  refine areSpelledBy_serverInterfaces ?_ hlan hwan
  rw [Bool.eq_iff_iff, ← router_mem_of_serverRoles hroles, isRouter, is, decide_eq_true_eq]

theorem Machine.areSpelledBy_of_ofDevice {role : Role} {e : DeviceEntry}
    (h : ofDevice defaultPorts domain role label e = .ok m) :
    AreSpelledBy e.macs (m.interfaces.filterMap (·.mac)) := by
  unfold ofDevice at h
  obtain ⟨-, -, h⟩ := bind_eq_ok.mp h
  obtain ⟨lan, hlan, h⟩ := bind_eq_ok.mp h
  obtain ⟨egress, -, h⟩ := bind_eq_ok.mp h
  cases h
  simpa [interfaces] using areSpelledBy_deviceInterfaces hlan

theorem Machine.areSpelledBy_of_ofUser {isAdmin : Bool} {e : UserEntry}
    (h : ofUser domain isAdmin label e = .ok m) :
    AreSpelledBy e.macs (m.interfaces.filterMap (·.mac)) := by
  unfold ofUser at h
  obtain ⟨-, -, h⟩ := bind_eq_ok.mp h
  dsimp only at h
  split at h
  · obtain ⟨lan, hlan, h⟩ := bind_eq_ok.mp h
    cases h
    simpa [interfaces] using areSpelledBy_deviceInterfaces hlan
  · next hnone =>
    cases h
    have hmacs : e.macs = [] := by simpa using hnone
    rw [hmacs]
    exact .nil

end Machines

/-! ## Networks -/

section Networks

variable {defaultPorts : List Nat} {d : Description} {ms : List Machine}

/-- The interfaces of a network have the addresses that are written in its description. -/
theorem areSpelledBy_declaredMacs (h : machinesOf defaultPorts d = .ok ms) :
    AreSpelledBy d.spelledMacs ((declaredMacs ms).map (·.1)) := by
  obtain ⟨-, servers, inner, outer, users, rfl, hparts⟩ := exists_areMachinesOf h
  rw [map_declaredMacs, List.flatMap_append, List.flatMap_append, List.flatMap_append]
  refine List.rel_append (List.rel_append (List.rel_append ?_ ?_) ?_) ?_
  · exact List.rel_flatMap hparts.servers fun _ _ => Machine.areSpelledBy_of_ofServer
  · exact List.rel_flatMap hparts.inner fun _ _ => Machine.areSpelledBy_of_ofDevice
  · exact List.rel_flatMap hparts.outer fun _ _ => Machine.areSpelledBy_of_ofDevice
  · exact List.rel_flatMap hparts.users fun _ _ => Machine.areSpelledBy_of_ofUser

/-- The refusal of a network names an address that is declared at least twice. -/
theorem two_le_count_of_checkMacsFrom {seen macs : List (Mac × String × String)} {e : InputError}
    (h : checkMacsFrom seen macs = .error e) :
    ∃ label field mac other, e = .duplicateMac label field (Mac.text mac) other ∧
      2 ≤ ((seen ++ macs).map (·.1)).count mac := by
  induction macs generalizing seen with
  | nil => cases h
  | cons x macs ih =>
    obtain ⟨mac, label, iface⟩ := x
    rw [checkMacsFrom] at h
    split at h
    · next y other _ hfound =>
      cases h
      refine ⟨label, _, mac, other, rfl, ?_⟩
      have hearlier : 0 < (seen.map (·.1)).count mac :=
        List.count_pos_iff.mpr (List.mem_map.mpr
          ⟨_, List.mem_of_find?_eq_some hfound, by simpa using List.find?_some hfound⟩)
      rw [List.map_append, List.count_append, List.map_cons, List.count_cons_self]
      omega
    · obtain ⟨label', field, mac', other, he, hcount⟩ := ih h
      refine ⟨label', field, mac', other, he, ?_⟩
      rwa [(List.perm_middle.map _).count_eq]

theorem checkMacs_eq_ok_iff : checkMacs ms = .ok () ↔ ((declaredMacs ms).map (·.1)).Nodup := by
  refine ⟨fun h => (checkMacsFrom_eq_ok h).1, fun hnd => ?_⟩
  cases h : checkMacs ms with
  | ok => rfl
  | error e =>
    obtain ⟨_, _, mac, _, -, hcount⟩ := two_le_count_of_checkMacsFrom h
    have hle := List.nodup_iff_count_le_one.mp hnd mac
    rw [List.nil_append] at hcount
    omega

/-- The written forms of declared addresses are the normal forms of their texts. -/
theorem map_text_declaredMacs (h : machinesOf defaultPorts d = .ok ms) :
    ((declaredMacs ms).map (·.1)).map Mac.text = d.spelledMacs.map Mac.normalForm :=
  map_eq_map_of_forall₂ (areSpelledBy_declaredMacs h).flip fun _ _ => Mac.text_eq_normalForm

end Networks

/-- A hardware address can be read exactly if it is six groups of two hexadecimal digits with a
colon or a hyphen between any two of them. It is written as its text in small letters with colons,
from which it is read back, so two texts stand for one address if and only if they have one normal
form. The interfaces of a network pass the check of their addresses exactly if no two of the texts in
its description do, and otherwise a text is named that at least two of them have as their form. -/
theorem macs_normalise :
    (∀ s, (∃ m, Mac.ofText? s = some m) ↔ Mac.IsSpelled 6 (Text.Chars.trim s.toList)) ∧
    (∀ s m, Mac.ofText? s = some m → m.text = Mac.normalForm s) ∧
    (∀ m : Mac, Mac.ofText? m.text = some m) ∧
    (∀ s t m n, Mac.ofText? s = some m → Mac.ofText? t = some n →
      (m = n ↔ Mac.normalForm s = Mac.normalForm t)) ∧
    (∀ defaultPorts d ms, machinesOf defaultPorts d = .ok ms →
      (checkMacs ms = .ok () ↔ (d.spelledMacs.map Mac.normalForm).Nodup) ∧
      ∀ e, checkMacs ms = .error e → ∃ label field text other,
        e = .duplicateMac label field text other ∧
          2 ≤ (d.spelledMacs.map Mac.normalForm).count text) ∧
    ∀ name d s g, Graph.ofDescription name d s = .ok g →
      (d.spelledMacs.map Mac.normalForm).Nodup := by
  have hcheck : ∀ {defaultPorts d ms}, machinesOf defaultPorts d = .ok ms →
      (checkMacs ms = .ok () ↔ (d.spelledMacs.map Mac.normalForm).Nodup) := fun h => by
    rw [checkMacs_eq_ok_iff, ← map_text_declaredMacs h,
      List.nodup_map_iff fun _ _ => Mac.text_inj]
  refine ⟨fun s => Mac.exists_ofText?_iff, fun s m => Mac.text_eq_normalForm, Mac.ofText?_text,
    fun s t m n hs ht => ?_, fun defaultPorts d ms h => ⟨hcheck h, fun e he => ?_⟩,
    fun name d s g hg => ?_⟩
  · rw [← Mac.text_eq_normalForm hs, ← Mac.text_eq_normalForm ht]
    exact ⟨congrArg Mac.text, Mac.text_inj⟩
  · obtain ⟨label, field, mac, other, rfl, hcount⟩ := two_le_count_of_checkMacsFrom he
    refine ⟨label, field, mac.text, other, rfl, ?_⟩
    rw [← map_text_declaredMacs h, List.count_map_of_injective _ _ fun _ _ => Mac.text_inj]
    exact hcount
  · obtain ⟨ms, hms, -, -, hmacs, -⟩ := Graph.exists_checked hg
    exact (hcheck hms).mp hmacs

/-- Two devices under one address, spelled in two ways. -/
def spelledLab : Description where
  internalDevices := [
    ("tv", { macs := ["02:00:5e:10:00:0a"] }),
    ("fridge", { macs := [" 02-00:5E-10:00-0A\n"] })]

theorem macs_normalise_devices :
    (∃ m, Mac.ofText? " 02-00:5E-10:00-0A\n" = some m ∧ m.text = "02:00:5e:10:00:0a") ∧
    ∃ ms, machinesOf [] spelledLab = .ok ms ∧
      ¬(spelledLab.spelledMacs.map Mac.normalForm).Nodup ∧ checkMacs ms ≠ .ok () := by
  obtain ⟨-, hform, -, -, hcheck, -⟩ := macs_normalise
  constructor
  · have hread : (Mac.ofText? " 02-00:5E-10:00-0A\n").isSome = true := by decide +kernel
    obtain ⟨m, hm⟩ := Option.isSome_iff_exists.mp hread
    refine ⟨m, hm, (hform _ m hm).trans ?_⟩
    decide +kernel
  · have hmachines : (machinesOf [] spelledLab).toBool = true := by decide +kernel
    cases hms : machinesOf [] spelledLab with
    | error e =>
      rw [hms] at hmachines
      cases hmachines
    | ok ms =>
      have htexts : ¬(spelledLab.spelledMacs.map Mac.normalForm).Nodup := by decide +kernel
      exact ⟨ms, rfl, htexts, fun hok => htexts ((hcheck [] spelledLab ms hms).1.mp hok)⟩

end NetworkCompiler
