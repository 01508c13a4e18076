import NetworkCompiler.Proofs.Provision.MachineUnits
import NetworkCompiler.Proofs.Provision.RenderedAddresses
import NetworkCompiler.Proofs.Report.Verification

/-!
# Faults that verification leaves to a compilation

If a report has no error, then the network has been compiled as far as it concerns all machines.
What is left are the scripts of its machines, and of the faults of the input only one can still be
found there, a name that is no profile (`compileAll_error`). So whether a verified network can still
fail on its input depends on the profiles that its servers list (`verified_compiles_iff`), and
`verified_unknownProfile` is a network that does.
-/

namespace NetworkCompiler

open Provision (Context Profile profileNames profilesOf machineUnits checkedUnits isManaged
  mem_managedContexts)

/-! ## Servers -/

theorem Machine.profiles_of_ofServer {defaultPorts : List Nat} {domain label : String}
    {e : ServerEntry} {m : Machine} (h : ofServer defaultPorts domain label e = .ok m) :
    m.profiles = e.profiles := by
  unfold ofServer at h
  obtain ⟨_, -, h⟩ := bind_eq_ok.mp h
  obtain ⟨-, -, h⟩ := bind_eq_ok.mp h
  obtain ⟨_, -, h⟩ := bind_eq_ok.mp h
  obtain ⟨_, -, h⟩ := bind_eq_ok.mp h
  obtain ⟨_, -, h⟩ := bind_eq_ok.mp h
  obtain ⟨_, -, h⟩ := bind_eq_ok.mp h
  obtain ⟨_, -, h⟩ := bind_eq_ok.mp h
  obtain ⟨_, _, _, _, _, _, rfl, -⟩ := exists_rules_of_withFirewall h
  rfl

theorem Machine.profiles_of_ofDevice {defaultPorts : List Nat} {domain label : String} {role : Role}
    {e : DeviceEntry} {m : Machine} (h : ofDevice defaultPorts domain role label e = .ok m) :
    m.profiles = [] := by
  unfold ofDevice at h
  obtain ⟨-, -, h⟩ := bind_eq_ok.mp h
  obtain ⟨_, -, h⟩ := bind_eq_ok.mp h
  obtain ⟨_, -, h⟩ := bind_eq_ok.mp h
  cases h
  rfl

theorem Machine.profiles_of_ofUser {domain label : String} {isAdmin : Bool} {e : UserEntry}
    {m : Machine} (h : ofUser domain isAdmin label e = .ok m) : m.profiles = [] := by
  unfold ofUser at h
  obtain ⟨-, -, h⟩ := bind_eq_ok.mp h
  dsimp only at h
  split at h
  · obtain ⟨_, -, h⟩ := bind_eq_ok.mp h
    cases h
    rfl
  · cases h
    rfl

theorem Machine.isManaged_of_ofServer {defaultPorts : List Nat} {domain label : String}
    {e : ServerEntry} {m : Machine} (h : ofServer defaultPorts domain label e = .ok m) :
    isManaged m = true := by
  obtain ⟨-, hroles, -⟩ := ofServer_eq_ok h
  obtain ⟨hserver, -⟩ := of_serverRoles hroles
  simpa [isManaged, isRouter, is] using hserver

section Access

variable (ms : List Machine) (m : Machine)

@[simp] theorem grantAccess_profiles : (grantAccess ms m).profiles = m.profiles := by
  obtain ⟨_, h⟩ := exists_grantAccess_eq ms m
  rw [h]

theorem isManaged_grantAccess : isManaged (grantAccess ms m) = isManaged m := by
  simp only [isManaged, Machine.isRouter, Machine.is, grantAccess_roles]

end Access

namespace Graph

variable {name : String} {d : Description} {s : Settings} {g : Graph}
variable (hg : Graph.ofDescription name d s = .ok g)
include hg

/-- Every server of a description gets scripts. -/
theorem exists_managed {label : String} {e : ServerEntry} (he : (label, e) ∈ d.servers) :
    ∃ m ∈ g.machines, m.label = label ∧ m.profiles = e.profiles ∧ isManaged m = true := by
  obtain ⟨ms, hms, hmachines⟩ := exists_machinesOf hg
  obtain ⟨m, hm, hserver⟩ := (machinesOf_eq_ok hms).2.2 _ he
  refine ⟨grantAccess ms m, hmachines ▸ List.mem_map_of_mem hm, ?_, ?_, ?_⟩
  · simpa using (Machine.ofServer_eq_ok hserver).1
  · simpa using Machine.profiles_of_ofServer hserver
  · rw [isManaged_grantAccess]
    exact Machine.isManaged_of_ofServer hserver

/-- A machine that lists profiles is a server of the description. -/
theorem exists_entry_of_profile {m : Machine} (hm : m ∈ g.machines) {p : String}
    (hp : p ∈ m.profiles) : ∃ e, (m.label, e) ∈ d.servers ∧ p ∈ e.profiles := by
  obtain ⟨ms, n, rfl, hread⟩ := exists_isReadFrom hg hm
  rw [grantAccess_profiles] at hp
  rw [grantAccess_label]
  cases hread with
  | server he h =>
    rw [(Machine.ofServer_eq_ok h).1]
    exact ⟨_, he, Machine.profiles_of_ofServer h ▸ hp⟩
  | device _ h =>
    rw [Machine.profiles_of_ofDevice h] at hp
    cases hp
  | user h =>
    rw [Machine.profiles_of_ofUser h] at hp
    cases hp

end Graph

/-- A server of a description lists a name that is no profile. -/
def Description.ListsUnknown (d : Description) (label p : String) : Prop :=
  ∃ e, (label, e) ∈ d.servers ∧ p ∈ e.profiles ∧ Profile.ofName? p = none

/-! ## Compilations -/

/-- The scripts of a machine fail on a profile that it lists, or in their own right. -/
theorem compileMachine_error {c : Context} {modes : List Mode} {e : Failure}
    (h : compileMachine c modes = .error e) :
    (∃ p ∈ c.machine.profiles, Profile.ofName? p = none ∧
      e = .input (.unknownProfile c.label p)) ∨ ∃ e', e = .compile e' := by
  have hcompile : ∀ {α : Type} {x : Except CompileError α}, ofCompile x = .error e →
      ∃ e', e = .compile e' := by
    intro α x hx
    obtain ⟨e', -, rfl⟩ := mapError_eq_error.mp hx
    exact ⟨e', rfl⟩
  rcases bind_eq_error.mp h with h | ⟨units, -, h⟩
  · rcases bind_eq_error.mp h with h | ⟨units, -, h⟩
    · rcases bind_eq_error.mp h with h | ⟨profiles, -, h⟩
      · obtain ⟨e', he', rfl⟩ := mapError_eq_error.mp h
        obtain ⟨p, hp, hnone, rfl⟩ := Provision.profilesOf_error he'
        exact Or.inl ⟨p, hp, hnone, rfl⟩
      · exact Or.inr (hcompile h)
    · rcases bind_eq_error.mp h with h | ⟨_, -, h⟩
      · exact Or.inr (hcompile h)
      · exact absurd h pure_ne_error
  · obtain ⟨mode, -, h⟩ := exists_of_mapM_eq_error h
    exact Or.inr (hcompile h)

theorem compileMachine_of_profiles {c : Context} {modes : List Mode} {e : InputError}
    (h : profilesOf c.machine = .error e) : compileMachine c modes = .error (.input e) := by
  rw [compileMachine, checkedUnits, machineUnits, h]
  rfl

section Compiled

variable {name : String} {d : Description} {s : Settings} {n : CompiledNetwork}
variable (hn : (CompiledNetwork.ofDescription name d s).result = .ok n)
include hn

/-- A compiled network can fail on its input only by a name that is no profile. -/
theorem compileAll_error {modes : List Mode} {secrets : Secrets} {only : Option String}
    {e : Failure} (h : (compileAll n modes secrets only).result = .error e) :
    (∃ label p, d.ListsUnknown label p ∧ e = .input (.unknownProfile label p)) ∨
      ∃ e', e = .compile e' := by
  obtain ⟨hg, -⟩ := CompiledNetwork.ofDescription_eq_ok hn
  rcases Traced.result_bind_eq_error.mp h with h | ⟨_, -, h⟩
  · rw [Traced.result_mapM] at h
    obtain ⟨c, hc, hfail⟩ := exists_of_mapM_eq_error h
    obtain ⟨rfl, hm, -⟩ := mem_managedContexts (List.mem_of_mem_filter hc)
    rcases Traced.result_bind_eq_error.mp hfail with hfail | ⟨scripts, -, hfail⟩
    · refine (compileMachine_error hfail).imp_left fun ⟨p, hp, hnone, he⟩ => ?_
      obtain ⟨entry, hentry, hlisted⟩ :=
        Graph.exists_entry_of_profile hg (List.mem_of_getElem? hm) hp
      exact ⟨_, p, ⟨entry, hentry, hlisted, hnone⟩, he⟩
    · cases hfail
  · cases h

/-- The machines that get scripts have distinct labels. -/
theorem nodup_labels_managedContexts (secrets : Secrets) :
    ((managedContexts n secrets).map (·.label)).Nodup := by
  obtain ⟨hg, -⟩ := CompiledNetwork.ofDescription_eq_ok hn
  have hsublist : ((n.graph.entries.filter fun e => isManaged e.2).map (·.2.label)).Sublist
      (n.graph.entries.map (·.2.label)) := List.filter_sublist.map _
  rw [n.graph.map_entries (·.label)] at hsublist
  rw [managedContexts, List.map_map]
  exact (Graph.nodup_labels hg).sublist hsublist

/-- A server that lists a name that is no profile gets no scripts. -/
theorem exists_compileAll_error {label p : String} (h : d.ListsUnknown label p)
    (modes : List Mode) (secrets : Secrets) :
    ∃ e, (compileAll n modes secrets (some label)).result = .error (.input e) := by
  obtain ⟨hg, -⟩ := CompiledNetwork.ofDescription_eq_ok hn
  obtain ⟨entry, hentry, hlisted, hnone⟩ := h
  obtain ⟨m, hm, rfl, hprofiles, hmanaged⟩ := Graph.exists_managed hg hentry
  obtain ⟨id, hid⟩ := List.mem_iff_getElem?.mp hm
  obtain ⟨e, he⟩ := Provision.exists_profilesOf_error (hprofiles ▸ hlisted) hnone
  let c : Context := ⟨n, id, m, secrets⟩
  have hc : c ∈ managedContexts n secrets :=
    List.mem_map.mpr ⟨(id, m), List.mem_filter.mpr ⟨Graph.mem_entries.mpr hid, hmanaged⟩, rfl⟩
  have hchosen : ((managedContexts n secrets).filter fun c' => (some m.label).all (· = c'.label)) =
      [c] := by
    rw [← filter_of_nodup_key (nodup_labels_managedContexts hn secrets) hc]
    exact List.filter_congr fun c' _ => decide_eq_decide.mpr eq_comm
  have hfail : (compileReported modes c).result = .error (.input e) := by
    rw [compileReported, Traced.result_bind, Traced.result_ofExcept, compileMachine_of_profiles he]
    rfl
  refine ⟨e, ?_⟩
  rw [compileAll, hchosen, Traced.result_bind, Traced.result_mapM, List.mapM_cons, hfail]
  rfl

end Compiled

/-- If a report has no error, then the network is compiled as far as it concerns all machines, and
whatever fails in the scripts of its machines is either the scripts in their own right or a name
that is no profile. The latter is excluded exactly if no server lists such a name. -/
theorem verified_compiles_iff {name : String} {d : Description} {s : Settings}
    (h : (verify name d s).errors = 0) :
    ∃ n, (CompiledNetwork.ofDescription name d s).result = .ok n ∧
      (∀ modes secrets only e, (compileAll n modes secrets only).result = .error e →
        (∃ label p, d.ListsUnknown label p ∧ e = .input (.unknownProfile label p)) ∨
          ∃ e', e = .compile e') ∧
      ((∀ modes secrets only e, (compileAll n modes secrets only).result = .error e →
        ∃ e', e = .compile e') ↔ ∀ label p, ¬d.ListsUnknown label p) := by
  cases hn : (CompiledNetwork.ofDescription name d s).result with
  | error e =>
    have hpos := verify_errors_pos.mpr (Or.inr ⟨e, hn⟩)
    omega
  | ok n =>
    refine ⟨n, rfl, fun modes secrets only e => compileAll_error hn, ?_, ?_⟩
    · intro hcompile label p hlists
      obtain ⟨e, he⟩ := exists_compileAll_error hn hlists [] .builtin
      obtain ⟨e', he'⟩ := hcompile _ _ _ _ he
      cases he'
    · intro hknown modes secrets only e he
      refine (compileAll_error hn he).resolve_left ?_
      rintro ⟨label, p, hlists, -⟩
      exact hknown label p hlists

/-- A router that lists one profile. -/
def listingLab (profile : String) : Description where
  servers := [("router", { types := ["router"], profiles := [profile] })]

/-- A verified network whose profiles are known fails by its scripts only. -/
theorem verified_compiles_listing :
    (verify "lab" (listingLab "dns-server") .default).errors = 0 ∧
      ∃ n, (CompiledNetwork.ofDescription "lab" (listingLab "dns-server") .default).result = .ok n ∧
        ∀ modes secrets only e, (compileAll n modes secrets only).result = .error e →
          ∃ e', e = .compile e' := by
  have hverified : (verify "lab" (listingLab "dns-server") .default).errors = 0 := by
    decide +kernel
  obtain ⟨n, hn, -, hiff⟩ := verified_compiles_iff hverified
  refine ⟨hverified, n, hn, hiff.mpr ?_⟩
  rintro label p ⟨e, he, hp, hnone⟩
  obtain ⟨rfl, rfl⟩ := Prod.mk.inj (List.mem_singleton.mp he)
  rw [List.mem_singleton.mp hp] at hnone
  cases hnone

/-- A verified network with a name that is no profile fails on its input. -/
theorem verified_unknownProfile :
    Settings.default.Valid ∧ (verify "lab" (listingLab "nosuch") .default).errors = 0 ∧
      ∃ n, (CompiledNetwork.ofDescription "lab" (listingLab "nosuch") .default).result = .ok n ∧
        (compileAll n [] .builtin none).result =
          .error (.input (.unknownProfile "router" "nosuch")) := by
  refine ⟨by decide, by decide +kernel, ?_⟩
  have hfail : ((CompiledNetwork.ofDescription "lab" (listingLab "nosuch") .default).result.map
      fun n => (compileAll n [] .builtin none).result) =
        .ok (.error (.input (.unknownProfile "router" "nosuch"))) := by
    decide +kernel
  exact map_eq_ok.mp hfail

end NetworkCompiler
