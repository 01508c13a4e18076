import NetworkCompiler.Proofs.ConfigUnit.Order
import NetworkCompiler.Proofs.Lists
import NetworkCompiler.Proofs.Results
import NetworkCompiler.Provision.Profile

/-!
# Preconditions of a machine's units

Whatever profiles a machine has, its units can rely on each other. Each part of a profile needs
the labels of a few units that stand in front of it : those of its own profile in earlier phases,
and the packages of the base profile, which every machine has (`isSupplied_units`). So the units of
a machine, phase by phase, are supplied (`isSupplied_unitsOf`).
-/

namespace NetworkCompiler.Provision

open ConfigUnit

variable {c : Context} {seen : List String}

/-! ## Packages, accounts and identity -/

theorem isSupplied_map_packageInstalled (packages : List String) :
    IsSupplied seen (packages.map packageInstalled) :=
  isSupplied_of_forall (List.forall_mem_map.mpr fun p _ => (isFree_packageInstalled p).isMet)

theorem isSupplied_keyUnits (name key : String) {account : String} (h : account ∈ seen) :
    IsSupplied seen (keyUnits name account key) :=
  ⟨(isFree_directoryExists _).isMet_after h,
    (isFree_fileContent _ _).isMet_after (by simp),
    (isFree_fileOwner _ _).isMet_after (by simp [ConfigUnit.after]),
    (isFree_fileOwner _ _).isMet_after (by simp [ConfigUnit.after]),
    (isFree_fileMode _ _).isMet_after (by simp [ConfigUnit.after]), trivial⟩

theorem isMet_passwordUnit (name passphrase : String) {account : String} (h : account ∈ seen) :
    IsMet seen (passwordUnit name account passphrase) :=
  ⟨isUnitLabel_append_key (by decide) name, .inr h⟩

theorem isSupplied_accountUnits (name : String) (account : Account)
    (h : (packageInstalled "sudo").label ∈ seen) :
    IsSupplied seen (accountUnits c name account) := by
  have hsudo : (packageInstalled "sudo").label = "pkg_sudo" := by decide
  have huser : IsMet seen (accountUnit name account) :=
    (isFree_userExists _ _).isMet_after (hsudo ▸ h)
  have hgroup : IsMet ((accountUnit name account).label :: seen)
      ((groupMember name "sudo").after (accountUnit name account).label) :=
    (isFree_groupMember _ _).isMet_after List.mem_cons_self
  rw [accountUnits, List.append_assoc]
  refine IsSupplied.append_labels ⟨huser, hgroup, trivial⟩ (.append ?_ ?_)
  · split
    · exact isSupplied_keyUnits name _ (by simp)
    · trivial
  · split
    · exact ⟨isMet_passwordUnit name _ (by simp), trivial⟩
    · trivial

theorem isSupplied_administratorUnits (h : (packageInstalled "sudo").label ∈ seen) :
    IsSupplied seen (administratorUnits c) := by
  refine isSupplied_flatMap fun name _ => ?_
  split
  · exact isSupplied_accountUnits name _ h
  · trivial

theorem isSupplied_identityFiles : IsSupplied seen (identityFiles c) :=
  ⟨(isFree_fileContent _ _).isMet, (isFree_fileContent _ _).isMet, trivial⟩

theorem isSupplied_identityLive (hfile : (fileContent "/etc/hostname" c.label).label ∈ seen)
    (hpackage : (packageInstalled "openssh-server").label ∈ seen) :
    IsSupplied seen (identityLive c) := by
  have hname : (fileContent "/etc/hostname" c.label).label = "file_etc_hostname" := by
    change "file_" ++ key "/etc/hostname" = _
    decide
  have hssh : (packageInstalled "openssh-server").label = "pkg_openssh_server" := by decide
  exact ⟨⟨show isUnitLabel "hostname_live" = true by decide, .inr (hname ▸ hfile)⟩,
    (isFree_serviceRunning _).isMet_after (List.mem_cons_of_mem _ (hssh ▸ hpackage)), trivial⟩

theorem isSupplied_updateFiles (h : (packageInstalled updatePackage).label ∈ seen) :
    IsSupplied seen updateFiles :=
  ⟨(isFree_fileContent _ _).isMet_after h, trivial⟩

theorem isSupplied_updateLive (h : (packageInstalled updatePackage).label ∈ seen) :
    IsSupplied seen updateLive :=
  ⟨(isFree_serviceEnabled _).isMet_after h, trivial⟩

/-! ## Services of the router -/

/-- A service is enabled behind its file, runs behind that, and is checked at the end. -/
theorem isSupplied_serviceLive {service file : String} {check : ConfigUnit} (h : file ∈ seen)
    (hlabel : isUnitLabel check.label = true)
    (hcheck : check.precondition = (serviceRunning service).label) :
    IsSupplied seen [(serviceEnabled service).after file,
      (serviceRunning service).after (serviceEnabled service).label, check] :=
  ⟨(isFree_serviceEnabled _).isMet_after h,
    (isFree_serviceRunning _).isMet_after List.mem_cons_self,
    ⟨hlabel, .inr (hcheck ▸ List.mem_cons_self)⟩, trivial⟩

theorem isSupplied_leaseFiles (h : (packageInstalled leasePackage).label ∈ seen) :
    IsSupplied seen (leaseFiles c) :=
  ⟨(isFree_fileContent _ _).isMet_after h,
    (isFree_fileContent _ _).isMet_after (List.mem_cons_of_mem _ h), trivial⟩

theorem isSupplied_leaseLive (h : "file_" ++ key leasePath ∈ seen) : IsSupplied seen leaseLive :=
  isSupplied_serviceLive h (show isUnitLabel "dhcpd_conf_valid" = true by decide) rfl

theorem isSupplied_nameFiles (h : (packageInstalled namePackage).label ∈ seen) :
    IsSupplied seen (nameFiles c) := by
  refine .append ?_ ⟨(isFree_fileContent _ _).isMet_after h, trivial⟩
  split
  · exact ⟨⟨show isUnitLabel "adblock_list" = true by decide, .inr h⟩, trivial⟩
  · trivial

theorem isSupplied_nameLive (h : "file_" ++ key namePath ∈ seen) : IsSupplied seen nameLive :=
  isSupplied_serviceLive h (show isUnitLabel "unbound_conf_valid" = true by decide) rfl

theorem isSupplied_forwardingUnits (phase : Phase) :
    IsSupplied seen (Profile.forwardingUnits phase) := by
  cases phase with
  | persistentConfig => exact ⟨(isFree_fileContent _ _).isMet, trivial⟩
  | liveConfig => exact ⟨(isFree_kernelParameter _ _).isMet, trivial⟩
  | install => trivial
  | persistentFirewall => trivial
  | liveFirewall => trivial

/-! ## Rules -/

theorem isSupplied_ruleFiles {scope : RuleScope} {us : List ConfigUnit}
    (hus : ruleFiles scope c = .ok us) (h : ∀ u ∈ rulePackages c, u.label ∈ seen) :
    IsSupplied seen us := by
  obtain ⟨document, -, hus⟩ := bind_eq_ok.mp hus
  cases hus
  refine ⟨?_, (isFree_serviceEnabled _).isMet_after List.mem_cons_self, trivial⟩
  split
  · next package hpackage =>
    exact (isFree_fileContent _ _).isMet_after (h package (List.mem_of_mem_head? hpackage))
  · exact (isFree_fileContent _ _).isMet

theorem isSupplied_ruleLive {scope : RuleScope} {files us : List ConfigUnit}
    (hus : ruleLive scope c = .ok us) (hfiles : ruleFiles scope c = .ok files)
    (h : ∀ u ∈ files, u.label ∈ seen) : IsSupplied seen us := by
  obtain ⟨document, hdocument, hus⟩ := bind_eq_ok.mp hus
  rw [ruleFiles, hdocument] at hfiles
  cases hus
  cases hfiles
  have hfile := h _ List.mem_cons_self
  refine ⟨⟨show isUnitLabel "firewall_live" = true by decide, .inr ?_⟩, trivial⟩
  split at hfile <;> exact hfile

/-! ## Virtual machines and links -/

theorem isMet_diskUnit {precondition : String} (service : String) (disk : DiskSpec)
    (h : precondition ∈ seen) : IsMet seen (diskUnit precondition service disk) :=
  ⟨(((IsCompound.append (s := "disk_") (by decide) (allIdentifier_key service)).append
    (t := "_") (by decide)).append (allIdentifier_key disk.name)).isUnitLabel, .inr h⟩

theorem isMet_runningUnit {precondition : String} (m : Machine) (h : precondition ∈ seen) :
    IsMet seen (runningUnit precondition m) :=
  ⟨((IsCompound.append (s := "vm_") (by decide) (allIdentifier_key m.label)).append
    (t := "_running") (by decide)).isUnitLabel, .inr h⟩

theorem isMet_addressUnit {precondition : String} (name address : String)
    (h : precondition ∈ seen) : IsMet seen (addressUnit precondition name address) :=
  ⟨isUnitLabel_append_key (by decide) name, .inr h⟩

theorem isSupplied_serviceUnits {precondition : String} (m : Machine) (h : precondition ∈ seen) :
    IsSupplied seen (serviceUnits precondition m) := by
  rw [serviceUnits]
  split
  · trivial
  · refine .append (isSupplied_of_forall ?_) (isSupplied_of_forall ?_)
    · exact List.forall_mem_map.mpr fun disk _ => isMet_diskUnit m.label disk h
    · exact List.forall_mem_map.mpr fun _ _ => (isFree_fileContent _ _).isMet

theorem isSupplied_hypervisorFiles
    (h : (packageInstalled "libvirt-daemon-system").label ∈ seen) :
    IsSupplied seen (hypervisorFiles c) :=
  ⟨(isFree_directoryExists _).isMet_after h,
    isSupplied_flatMap fun m _ => isSupplied_serviceUnits m List.mem_cons_self⟩

theorem isSupplied_hypervisorLive
    (h : (packageInstalled "libvirt-daemon-system").label ∈ seen) :
    IsSupplied seen (hypervisorLive c) :=
  ⟨(isFree_serviceRunning _).isMet_after h,
    isSupplied_of_forall (List.forall_mem_map.mpr fun m _ =>
      isMet_runningUnit m List.mem_cons_self)⟩

theorem isSupplied_linkFileUnits : IsSupplied seen (linkFileUnits c) :=
  isSupplied_of_forall (List.forall_mem_map.mpr fun _ _ => (isFree_fileContent _ _).isMet)

theorem isSupplied_linkLive : IsSupplied seen (linkLive c) := by
  refine ⟨(isFree_serviceEnabled _).isMet,
    (isFree_serviceRunning _).isMet_after List.mem_cons_self, isSupplied_of_forall ?_⟩
  exact List.forall_mem_map.mpr fun a _ =>
    isMet_addressUnit a.1 a.2 List.mem_cons_self

/-! ## Profiles -/

/-- The phases in front of a phase. -/
def earlier (phase : Phase) : List Phase :=
  Phase.all.takeWhile (· ≠ phase)

/-- The units of a profile in some phases could be made, and their labels are among `seen`. -/
def Stocks (c : Context) (seen : List String) (phases : List Phase) (p : Profile) : Prop :=
  ∀ phase ∈ phases, ∃ us, p.units c phase = .ok us ∧ ∀ u ∈ us, u.label ∈ seen

variable {phase : Phase}

theorem Stocks.label {phases : List Phase} {p : Profile} {us : List ConfigUnit} {u : ConfigUnit}
    (h : Stocks c seen phases p) (phase : Phase) (hphase : phase ∈ phases)
    (hus : p.units c phase = .ok us) (hu : u ∈ us) : u.label ∈ seen := by
  obtain ⟨vs, hvs, h⟩ := h phase hphase
  rw [hus] at hvs
  cases hvs
  exact h u hu

theorem isSupplied_leaseUnits
    (h : ∀ done ∈ earlier phase, ∀ u ∈ Profile.leaseUnits c done, u.label ∈ seen) :
    IsSupplied seen (Profile.leaseUnits c phase) := by
  cases phase with
  | install => exact ⟨(isFree_packageInstalled _).isMet, trivial⟩
  | persistentConfig =>
    exact isSupplied_leaseFiles (h .install (by decide) _ List.mem_cons_self)
  | liveConfig =>
    exact isSupplied_leaseLive (h .persistentConfig (by decide) _ List.mem_cons_self)
  | persistentFirewall => trivial
  | liveFirewall => trivial

theorem isSupplied_nameUnits
    (h : ∀ done ∈ earlier phase, ∀ u ∈ Profile.nameUnits c done, u.label ∈ seen) :
    IsSupplied seen (Profile.nameUnits c phase) := by
  cases phase with
  | install => exact ⟨(isFree_packageInstalled _).isMet, trivial⟩
  | persistentConfig =>
    exact isSupplied_nameFiles (h .install (by decide) _ List.mem_cons_self)
  | liveConfig =>
    exact isSupplied_nameLive (h .persistentConfig (by decide) _
      (List.mem_append_right _ List.mem_cons_self))
  | persistentFirewall => trivial
  | liveFirewall => trivial

theorem isSupplied_ruleUnits {scope : RuleScope} {us : List ConfigUnit}
    (hus : Profile.ruleUnits scope c phase = .ok us)
    (h : ∀ done ∈ earlier phase, ∃ vs, Profile.ruleUnits scope c done = .ok vs ∧
      ∀ v ∈ vs, v.label ∈ seen) :
    IsSupplied seen us := by
  cases phase with
  | install =>
    cases hus
    exact isSupplied_map_packageInstalled _
  | persistentFirewall =>
    obtain ⟨vs, hvs, h⟩ := h .install (by decide)
    cases hvs
    exact isSupplied_ruleFiles hus h
  | liveFirewall =>
    obtain ⟨vs, hvs, h⟩ := h .persistentFirewall (by decide)
    exact isSupplied_ruleLive hus hvs h
  | persistentConfig =>
    cases hus
    trivial
  | liveConfig =>
    cases hus
    trivial

/-- The units of a profile rely on its own units of earlier phases and on the base packages. -/
theorem isSupplied_units {p : Profile} {us : List ConfigUnit} (hus : p.units c phase = .ok us)
    (hbase : Stocks c seen (earlier phase) .base) (hp : Stocks c seen (earlier phase) p) :
    IsSupplied seen us := by
  cases p with
  | admins =>
    cases phase <;> cases hus <;> try trivial
    exact isSupplied_administratorUnits
      (hbase.label .install (by decide) rfl (by simp [basePackages]))
  | base =>
    cases phase <;> cases hus <;> try trivial
    · exact isSupplied_map_packageInstalled _
    · exact isSupplied_identityFiles
    · exact isSupplied_identityLive
        (hp.label .persistentConfig (by decide) rfl (by simp [identityFiles]))
        (hp.label .install (by decide) rfl (by simp [basePackages]))
  | dhcpServer =>
    cases hus
    exact isSupplied_leaseUnits fun done hdone u hu => hp.label done hdone rfl hu
  | dnsServer =>
    cases hus
    exact isSupplied_nameUnits fun done hdone u hu => hp.label done hdone rfl hu
  | hostFirewall => exact isSupplied_ruleUnits hus hp
  | routerFirewall => exact isSupplied_ruleUnits hus hp
  | hypervisor =>
    cases phase <;> cases hus <;> try trivial
    · exact isSupplied_map_packageInstalled _
    · exact isSupplied_hypervisorFiles
        (hp.label .install (by decide) rfl (by simp [hypervisorPackages]))
    · exact isSupplied_hypervisorLive
        (hp.label .install (by decide) rfl (by simp [hypervisorPackages]))
  | networkd =>
    cases phase <;> cases hus <;> try trivial
    · exact isSupplied_linkFileUnits
    · exact isSupplied_linkLive
  | unattendedUpgrades =>
    cases phase <;> cases hus <;> try trivial
    · exact ⟨(isFree_packageInstalled _).isMet, trivial⟩
    · exact isSupplied_updateFiles (hp.label .install (by decide) rfl (by simp))
    · exact isSupplied_updateLive (hp.label .install (by decide) rfl (by simp))
  | router =>
    obtain ⟨rules, hrules, hus⟩ := bind_eq_ok.mp hus
    cases hus
    -- the router's profile could be made in every earlier phase, so all its parts could
    have hparts : ∀ done ∈ earlier phase, ∃ rules, Profile.ruleUnits .router c done = .ok rules ∧
        ∀ u ∈ Profile.forwardingUnits done ++ Profile.leaseUnits c done ++
          Profile.nameUnits c done ++ rules, u.label ∈ seen := by
      intro done hdone
      obtain ⟨us, hus, h⟩ := hp done hdone
      obtain ⟨rules, hrules, hus⟩ := bind_eq_ok.mp hus
      cases hus
      exact ⟨rules, hrules, h⟩
    simp only [List.mem_append, or_imp, forall_and] at hparts
    refine .append (.append (.append (isSupplied_forwardingUnits phase) ?_) ?_) ?_
    · refine isSupplied_leaseUnits fun done hdone => ?_
      obtain ⟨-, -, ⟨⟨-, h⟩, -⟩, -⟩ := hparts done hdone
      exact h
    · refine isSupplied_nameUnits fun done hdone => ?_
      obtain ⟨-, -, ⟨-, h⟩, -⟩ := hparts done hdone
      exact h
    · refine isSupplied_ruleUnits hrules fun done hdone => ?_
      obtain ⟨rules, hrules, -, h⟩ := hparts done hdone
      exact ⟨rules, hrules, h⟩

/-! ## Machines -/

theorem earlier_of_all {before after : List Phase} (h : Phase.all = before ++ phase :: after) :
    earlier phase = before := by
  have hnd : (before ++ phase :: after).Nodup := h ▸ (by decide : Phase.all.Nodup)
  have hbefore : ∀ done ∈ before, (decide (done ≠ phase)) = true := by
    rintro done hdone
    refine decide_eq_true fun heq => ?_
    exact (List.nodup_append.mp hnd).2.2 done hdone phase List.mem_cons_self heq
  rw [earlier, h, List.takeWhile_append_of_pos hbefore, List.takeWhile_cons_of_neg (by simp),
    List.append_nil]

theorem isSupplied_phases {profiles : List Profile} (hbase : .base ∈ profiles)
    {before after : List Phase} (hall : Phase.all = before ++ after)
    {uss : List (List (List ConfigUnit))}
    (huss : List.Forall₂ (fun phase us => profiles.mapM (·.units c phase) = .ok us) after uss)
    (hseen : ∀ p ∈ profiles, Stocks c seen before p) : IsSupplied seen uss.flatten.flatten := by
  induction huss generalizing before seen with
  | nil => trivial
  | @cons phase us after uss hus huss ih =>
    have hus := mapM_eq_ok.mp hus
    have hall' : Phase.all = (before ++ [phase]) ++ after := by simpa using hall
    rw [List.flatten_cons, List.flatten_append]
    refine .append_labels (isSupplied_flatten fun vs hvs => ?_)
      (ih hall' fun p hp done hdone => ?_)
    · obtain ⟨p, hp, hvs⟩ := exists_of_mem_right hus hvs
      have hearlier := earlier_of_all hall
      exact isSupplied_units hvs (hearlier ▸ hseen .base hbase) (hearlier ▸ hseen p hp)
    · rcases List.mem_append.mp hdone with hdone | hdone
      · obtain ⟨vs, hvs, h⟩ := hseen p hp done hdone
        exact ⟨vs, hvs, fun v hv => List.mem_append_right _ (h v hv)⟩
      · rw [List.mem_singleton.mp hdone]
        obtain ⟨vs, hmem, hvs⟩ := exists_of_mem_left hus hp
        refine ⟨vs, hvs, fun v hv => List.mem_append_left _ ?_⟩
        exact List.mem_map_of_mem (List.mem_flatten.mpr ⟨vs, hmem, hv⟩)

theorem base_mem_profilesOf {m : Machine} {profiles : List Profile}
    (h : profilesOf m = .ok profiles) : .base ∈ profiles := by
  have hname : Profile.base.name ∈ profileNames m := by
    rw [profileNames, List.mem_eraseDups]
    simp [roleProfiles]
  obtain ⟨p, hp, h⟩ := exists_of_mem_left (mapM_eq_ok.mp h) hname
  cases h
  exact hp

theorem isSupplied_machineUnits {units : List ConfigUnit} (h : machineUnits c = .ok units) :
    IsSupplied [] units := by
  obtain ⟨profiles, hprofiles, h⟩ := bind_eq_ok.mp h
  have hprofiles := ofInput_eq_ok.mp hprofiles
  obtain ⟨uss, huss, h⟩ := bind_eq_ok.mp (mapError_eq_ok.mp h)
  cases h
  exact isSupplied_phases (base_mem_profilesOf hprofiles)
    (show Phase.all = [] ++ Phase.all from rfl)
    (mapM_eq_ok.mp huss) fun _ _ => nofun

/-- The units of a machine can be run in their order, whatever the network, the passphrases and the
profiles the machine lists : every label is an identifier and none of the reserved ones, and every
precondition always holds or is the label of a unit further in front. So nothing can be wrong with
the list but that two units are about the same thing. -/
theorem preconditions_of_machineUnits (c : Context) (units : List ConfigUnit)
    (h : machineUnits c = .ok units) :
    (∀ u ∈ units, isIdentifier u.label = true ∧ u.label ≠ proceed ∧ u.label ≠ headerName ∧
      u.label ≠ footerName) ∧
    (∀ before u after, units = before ++ u :: after →
      u.precondition = proceed ∨ ∃ v ∈ before, v.label = u.precondition) ∧
    ∀ machine e, checkUnits machine units = .error e →
      ∃ u ∈ units, e = .duplicateUnit machine u.label := by
  have hsupplied := isSupplied_machineUnits h
  refine ⟨fun u hu => ?_, fun before u after hsplit => ?_, fun machine e he => ?_⟩
  · simpa [isUnitLabel, reservedLabels] using hsupplied.isUnitLabel hu
  · rw [hsplit] at hsupplied
    simpa using hsupplied.precondition
  · exact checkUnits_of_isSupplied hsupplied he

/-- A router, and a hypervisor that answers for names as well. -/
def hostingLab : Description where
  domain := some "lan"
  servers := [
    ("router", { types := ["router"], wan := [("eth1", {})], lan := [("eth0", {})] }),
    ("web-1", { types := ["dedicated", "hypervisor"], profiles := ["dns-server", "base"],
                lan := [("lan0", { mac := some "02:00:00:00:00:01" })] })]

theorem preconditions_of_machineUnits_hosting :
    ∃ n c before u after,
      (CompiledNetwork.ofDescription "lab" hostingLab .default).result = .ok n ∧
      Context.of? n .builtin 1 = some c ∧ isManaged c.machine = true ∧
      c.machine.profiles = ["dns-server", "base"] ∧
      machineUnits c = .ok (before ++ u :: after) ∧ u.label = "unbound_conf_valid" ∧
      ∃ v ∈ before, v.label = "svc_unbound_running" := by
  have hlabels : ((CompiledNetwork.ofDescription "lab" hostingLab .default).result >>= fun n =>
      ((Context.of? n .builtin 1).map fun c =>
        (machineUnits c).map fun units => (isManaged c.machine, c.machine.profiles,
          units.any fun u =>
            u.label = "unbound_conf_valid" ∧ u.precondition = "svc_unbound_running")).getD
        (.ok (false, [], false))) = .ok (true, ["dns-server", "base"], true) := by
    decide +kernel
  obtain ⟨n, hn, hlabels⟩ := bind_eq_ok.mp hlabels
  cases hc : Context.of? n .builtin 1 with
  | none => simp [hc] at hlabels
  | some c =>
    rw [hc] at hlabels
    obtain ⟨units, hunits, hlabels⟩ := map_eq_ok.mp hlabels
    simp only [Prod.mk.injEq, List.any_eq_true, decide_eq_true_eq] at hlabels
    obtain ⟨hmanaged, hprofiles, u, hu, hlabel, hprecondition⟩ := hlabels
    obtain ⟨before, after, rfl⟩ := List.append_of_mem hu
    have hmet := (preconditions_of_machineUnits c _ hunits).2.1 before u after rfl
    rw [hprecondition] at hmet
    exact ⟨n, c, before, u, after, hn, hc, hmanaged, hprofiles, hunits, hlabel,
      hmet.resolve_left (by decide)⟩

end NetworkCompiler.Provision
