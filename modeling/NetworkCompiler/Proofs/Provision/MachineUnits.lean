import NetworkCompiler.Proofs.Lists
import NetworkCompiler.Proofs.Provision.UnitLabels
import NetworkCompiler.Proofs.Results
import NetworkCompiler.Provision.Profile

/-!
# Units of a machine

The names that a machine lists are the only ones that may be no profiles (`profilesOf_error`). If
it lists none, then its profiles are those of its roles, and its units are those that one of them
makes in some phase (`mem_machineUnits_iff`).

These are of two sorts (`mem_machineUnits`). Some are made whatever names there are, and their
labels are known (`map_label_fixedUnits`). The others are made for the machine's administrators, its
links and the services it runs, each of them for one name (`Named`), and the words of that name
stand in its label (`words_of_named`).
-/

namespace NetworkCompiler.Provision

open ConfigUnit

/-! ## Names of profiles -/

theorem Profile.ofName?_name (p : Profile) : Profile.ofName? p.name = some p := by
  cases p <;> rfl

theorem mem_profileNames {m : Machine} {p : String} (h : Profile.ofName? p = none) :
    p ∈ profileNames m ↔ p ∈ m.profiles := by
  rw [profileNames, List.mem_eraseDups, List.mem_append, or_iff_right]
  intro hrole
  obtain ⟨known, -, rfl⟩ := List.mem_map.mp hrole
  rw [Profile.ofName?_name] at h
  cases h

/-- The profiles of a machine are found unless it lists a name that is none. -/
theorem profilesOf_error {m : Machine} {e : InputError} (h : profilesOf m = .error e) :
    ∃ p ∈ m.profiles, Profile.ofName? p = none ∧ e = .unknownProfile m.label p := by
  obtain ⟨p, hp, h⟩ := exists_of_mapM_eq_error h
  split at h
  · cases h
  · next hnone =>
    cases h
    exact ⟨p, (mem_profileNames hnone).mp hp, hnone, rfl⟩

theorem exists_profilesOf_error {m : Machine} {p : String} (hp : p ∈ m.profiles)
    (hnone : Profile.ofName? p = none) : ∃ e, profilesOf m = .error e := by
  cases h : profilesOf m with
  | error e => exact ⟨e, rfl⟩
  | ok profiles =>
    obtain ⟨known, -, hknown⟩ := exists_of_mem_left (mapM_eq_ok.mp h)
      ((mem_profileNames hnone).mpr hp)
    rw [hnone] at hknown
    cases hknown

/-- A machine that lists no profiles has those of its roles. -/
theorem mem_profilesOf_iff {m : Machine} (hm : m.profiles = []) {profiles : List Profile}
    (h : profilesOf m = .ok profiles) {p : Profile} : p ∈ profiles ↔ p ∈ roleProfiles m := by
  have hread := mapM_eq_ok.mp h
  have hnames : ∀ name, name ∈ profileNames m ↔ name ∈ (roleProfiles m).map Profile.name := by
    intro name
    rw [profileNames, hm, List.append_nil, List.mem_eraseDups]
  constructor
  · intro hp
    obtain ⟨name, hname, hfound⟩ := exists_of_mem_right hread hp
    obtain ⟨q, hq, rfl⟩ := List.mem_map.mp ((hnames name).mp hname)
    rw [Profile.ofName?_name] at hfound
    cases hfound
    exact hq
  · intro hp
    obtain ⟨q, hq, hfound⟩ := exists_of_mem_left hread
      ((hnames p.name).mpr (List.mem_map_of_mem hp))
    rw [Profile.ofName?_name] at hfound
    cases hfound
    exact hq

/-! ## Units of profiles -/

theorem Phase.mem_all (phase : Phase) : phase ∈ all := by
  cases phase <;> decide

theorem exists_phase {P : Phase → Prop} :
    (∃ phase, P phase) ↔ P .install ∨ P .persistentConfig ∨ P .persistentFirewall ∨
      P .liveConfig ∨ P .liveFirewall := by
  constructor
  · rintro ⟨phase, h⟩
    cases phase <;> simp [h]
  · rintro (h | h | h | h | h) <;> exact ⟨_, h⟩

/-- A profile makes a unit in some phase. -/
def Profile.Makes (c : Context) (p : Profile) (u : ConfigUnit) : Prop :=
  ∃ phase units, p.units c phase = .ok units ∧ u ∈ units

section Units

variable {c : Context} {units : List ConfigUnit}
variable (hc : c.machine.profiles = []) (h : machineUnits c = .ok units)
include hc h

/-- The profiles of the roles could be made. -/
theorem exists_units {p : Profile} (hp : p ∈ roleProfiles c.machine) (phase : Phase) :
    ∃ us, p.units c phase = .ok us := by
  obtain ⟨profiles, hprofiles, h⟩ := bind_eq_ok.mp h
  obtain ⟨uss, huss, -⟩ := bind_eq_ok.mp (mapError_eq_ok.mp h)
  obtain ⟨us, -, hus⟩ := exists_of_mem_left (mapM_eq_ok.mp huss) phase.mem_all
  obtain ⟨vs, -, hvs⟩ := exists_of_mem_left (mapM_eq_ok.mp hus)
    ((mem_profilesOf_iff hc (ofInput_eq_ok.mp hprofiles)).mpr hp)
  exact ⟨vs, hvs⟩

/-- A machine that lists no profiles has the units of its roles. -/
theorem mem_machineUnits_iff {u : ConfigUnit} :
    u ∈ units ↔ ∃ p ∈ roleProfiles c.machine, p.Makes c u := by
  obtain ⟨profiles, hprofiles, h⟩ := bind_eq_ok.mp h
  obtain ⟨uss, huss, h⟩ := bind_eq_ok.mp (mapError_eq_ok.mp h)
  cases h
  have hphases := mapM_eq_ok.mp huss
  have hroles := fun p => mem_profilesOf_iff hc (ofInput_eq_ok.mp hprofiles) (p := p)
  constructor
  · intro hu
    obtain ⟨vs, hvs, hu⟩ := List.mem_flatten.mp hu
    obtain ⟨us, hus, hvs⟩ := List.mem_flatten.mp hvs
    obtain ⟨phase, -, hphase⟩ := exists_of_mem_right hphases hus
    obtain ⟨p, hp, hmade⟩ := exists_of_mem_right (mapM_eq_ok.mp hphase) hvs
    exact ⟨p, (hroles p).mp hp, phase, vs, hmade, hu⟩
  · rintro ⟨p, hp, phase, vs, hmade, hu⟩
    obtain ⟨us, hus, hphase⟩ := exists_of_mem_left hphases phase.mem_all
    obtain ⟨ws, hws, hmade'⟩ := exists_of_mem_left (mapM_eq_ok.mp hphase) ((hroles p).mpr hp)
    obtain rfl := Except.ok.inj (hmade.symm.trans hmade')
    exact List.mem_flatten.mpr ⟨vs, List.mem_flatten.mpr ⟨us, hus, hws⟩, hu⟩

end Units

variable {c : Context} {u : ConfigUnit}

/-! ## Units with and without names -/

/-- The units of the services of a router. -/
def routerUnits (c : Context) : List ConfigUnit :=
  Phase.all.flatMap fun phase =>
    Profile.forwardingUnits phase ++ Profile.leaseUnits c phase ++ Profile.nameUnits c phase

/-- The units of a machine that are made whatever names there are. Those of its firewall are
`rules`. -/
def fixedUnits (c : Context) (rules : List ConfigUnit) : List ConfigUnit :=
  basePackages.map packageInstalled ++ identityFiles c ++ identityLive c ++
  [serviceEnabled linkService,
    (serviceRunning linkService).after (serviceEnabled linkService).label] ++
  ((if c.machine.isRouter then routerUnits c else []) ++ rules) ++
  (if c.machine.is .hypervisor then
    hypervisorPackages.map packageInstalled ++
      [(directoryExists imageDirectory).after hypervisorLabel,
        (serviceRunning "libvirtd").after hypervisorLabel]
  else []) ++
  ([packageInstalled updatePackage] ++ updateFiles ++ updateLive)

/-- The units of a hypervisor about its services. -/
def hostedUnits (c : Context) : List ConfigUnit :=
  (c.graph.servicesOn c.label).flatMap (serviceUnits (directoryExists imageDirectory).label) ++
    (c.graph.servicesOn c.label).map (runningUnit (serviceRunning "libvirtd").label)

/-- The units of a machine that are made for names. -/
def namedUnits (c : Context) : List ConfigUnit :=
  administratorUnits c ++ linkFileUnits c ++
    (liveAddresses c).map (fun a => addressUnit (serviceRunning linkService).label a.1 a.2) ++
    if c.machine.is .hypervisor then hostedUnits c else []

namespace Profile

theorem makes_base : base.Makes c u ↔
    u ∈ basePackages.map packageInstalled ++ identityFiles c ++ identityLive c := by
  simp [Makes, exists_phase, units]

theorem makes_admins : admins.Makes c u ↔ u ∈ administratorUnits c := by
  simp [Makes, exists_phase, units]

theorem makes_networkd : networkd.Makes c u ↔ u ∈ linkFileUnits c ∨ u ∈ linkLive c := by
  simp [Makes, exists_phase, units]

theorem makes_hypervisor : hypervisor.Makes c u ↔
    u ∈ hypervisorPackages.map packageInstalled ∨ u ∈ hypervisorFiles c ∨ u ∈ hypervisorLive c := by
  simp [Makes, exists_phase, units]

theorem makes_unattendedUpgrades : unattendedUpgrades.Makes c u ↔
    u ∈ [packageInstalled updatePackage] ++ updateFiles ++ updateLive := by
  simp [Makes, exists_phase, units]

section Rules

variable {scope : RuleScope} {files live : List ConfigUnit}

theorem exists_ruleUnits (hfiles : ruleFiles scope c = .ok files)
    (hlive : ruleLive scope c = .ok live) :
    (∃ phase us, ruleUnits scope c phase = .ok us ∧ u ∈ us) ↔
      u ∈ rulePackages c ++ files ++ live := by
  simp [exists_phase, ruleUnits, hfiles, hlive]

theorem makes_hostFirewall (hfiles : ruleFiles .host c = .ok files)
    (hlive : ruleLive .host c = .ok live) :
    hostFirewall.Makes c u ↔ u ∈ rulePackages c ++ files ++ live :=
  exists_ruleUnits hfiles hlive

theorem makes_router (hfiles : ruleFiles .router c = .ok files)
    (hlive : ruleLive .router c = .ok live) :
    router.Makes c u ↔ u ∈ routerUnits c ++ (rulePackages c ++ files ++ live) := by
  have hrules : ∀ phase, ∃ rules, ruleUnits .router c phase = .ok rules := fun phase => by
    cases phase with
    | persistentFirewall => exact ⟨files, hfiles⟩
    | liveFirewall => exact ⟨live, hlive⟩
    | _ => exact ⟨_, rfl⟩
  rw [List.mem_append, ← exists_ruleUnits hfiles hlive, routerUnits, List.mem_flatMap]
  constructor
  · rintro ⟨phase, us, hus, hu⟩
    obtain ⟨rules, hphase, hus⟩ := bind_eq_ok.mp hus
    cases hus
    exact (List.mem_append.mp hu).imp (⟨phase, phase.mem_all, ·⟩) (⟨phase, rules, hphase, ·⟩)
  · rintro (⟨phase, -, hu⟩ | ⟨phase, rules, hphase, hu⟩)
    · obtain ⟨rules, hphase⟩ := hrules phase
      exact ⟨phase, _, bind_eq_ok.mpr ⟨rules, hphase, rfl⟩, List.mem_append_left _ hu⟩
    · exact ⟨phase, _, bind_eq_ok.mpr ⟨rules, hphase, rfl⟩, List.mem_append_right _ hu⟩

end Rules

end Profile

/-- Whose rules a machine has by its roles. -/
def scopeOf (m : Machine) : RuleScope :=
  if m.isRouter then .router else .host

section Units

variable {units : List ConfigUnit}
variable (hc : c.machine.profiles = []) (h : machineUnits c = .ok units)
include hc h

theorem exists_rules : ∃ files live, ruleFiles (scopeOf c.machine) c = .ok files ∧
    ruleLive (scopeOf c.machine) c = .ok live := by
  rw [scopeOf]
  cases hrouter : c.machine.isRouter with
  | false =>
    have hp : Profile.hostFirewall ∈ roleProfiles c.machine := by simp [roleProfiles, hrouter]
    obtain ⟨files, hfiles⟩ := exists_units hc h hp .persistentFirewall
    obtain ⟨live, hlive⟩ := exists_units hc h hp .liveFirewall
    exact ⟨files, live, hfiles, hlive⟩
  | true =>
    have hp : Profile.router ∈ roleProfiles c.machine := by simp [roleProfiles, hrouter]
    obtain ⟨_, hfiles⟩ := exists_units hc h hp .persistentFirewall
    obtain ⟨_, hlive⟩ := exists_units hc h hp .liveFirewall
    obtain ⟨files, hfiles, -⟩ := bind_eq_ok.mp hfiles
    obtain ⟨live, hlive, -⟩ := bind_eq_ok.mp hlive
    exact ⟨files, live, hfiles, hlive⟩

/-- The units of a machine that lists no profiles. -/
theorem mem_machineUnits {files live : List ConfigUnit}
    (hfiles : ruleFiles (scopeOf c.machine) c = .ok files)
    (hlive : ruleLive (scopeOf c.machine) c = .ok live) :
    u ∈ units ↔ u ∈ fixedUnits c (rulePackages c ++ files ++ live) ∨ u ∈ namedUnits c := by
  have hlinks : u ∈ linkLive c ↔ u ∈ [serviceEnabled linkService,
      (serviceRunning linkService).after (serviceEnabled linkService).label] ∨
      u ∈ (liveAddresses c).map
        fun a => addressUnit (serviceRunning linkService).label a.1 a.2 := List.mem_append
  have hhosted : u ∈ hypervisorFiles c ∨ u ∈ hypervisorLive c ↔
      u ∈ [(directoryExists imageDirectory).after hypervisorLabel,
        (serviceRunning "libvirtd").after hypervisorLabel] ∨ u ∈ hostedUnits c := by
    simp only [hypervisorFiles, hypervisorLive, hostedUnits, List.mem_cons, List.mem_append,
      List.not_mem_nil, or_false, label_after]
    exact or_or_or_comm
  have hrules : (∃ p ∈ if c.machine.isRouter then [Profile.router] else [.hostFirewall],
      p.Makes c u) ↔ u ∈ (if c.machine.isRouter then routerUnits c else []) ++
        (rulePackages c ++ files ++ live) := by
    rw [scopeOf] at hfiles hlive
    split at hfiles <;> simp_all only [if_true, if_false, Bool.false_eq_true]
    · rw [← Profile.makes_router hfiles hlive]
      simp
    · rw [List.nil_append, ← Profile.makes_hostFirewall hfiles hlive]
      simp
  have hhypervisor : (∃ p ∈ if c.machine.is .hypervisor then [Profile.hypervisor] else [],
      p.Makes c u) ↔ u ∈ (if c.machine.is .hypervisor then
        hypervisorPackages.map packageInstalled ++
          [(directoryExists imageDirectory).after hypervisorLabel,
            (serviceRunning "libvirtd").after hypervisorLabel] else []) ∨
      u ∈ if c.machine.is .hypervisor then hostedUnits c else [] := by
    cases c.machine.is .hypervisor with
    | false => simp
    | true =>
      rw [if_pos rfl, if_pos rfl, if_pos rfl, List.mem_append, or_assoc, ← hhosted,
        ← Profile.makes_hypervisor]
      simp
  have hroles : (∃ p ∈ roleProfiles c.machine, p.Makes c u) ↔
      (Profile.base.Makes c u ∨ Profile.admins.Makes c u ∨ Profile.networkd.Makes c u) ∨
      (∃ p ∈ if c.machine.isRouter then [Profile.router] else [.hostFirewall], p.Makes c u) ∨
      (∃ p ∈ if c.machine.is .hypervisor then [Profile.hypervisor] else [], p.Makes c u) ∨
      Profile.unattendedUpgrades.Makes c u := by
    simp only [roleProfiles, List.mem_append, or_and_right, exists_or, or_assoc, List.mem_cons,
      List.not_mem_nil, or_false, exists_eq_left]
  have hfixed : ∀ as bs cs ds es : List ConfigUnit,
      u ∈ as ++ bs ++ cs ++ ds ++ es ↔ u ∈ as ∨ u ∈ bs ∨ u ∈ cs ∨ u ∈ ds ∨ u ∈ es := by
    simp
  have hnamed : ∀ as bs cs ds : List ConfigUnit,
      u ∈ as ++ bs ++ cs ++ ds ↔ u ∈ as ∨ u ∈ bs ∨ u ∈ cs ∨ u ∈ ds := by
    simp
  rw [mem_machineUnits_iff hc h, hroles, hrules, hhypervisor, Profile.makes_base,
    Profile.makes_admins, Profile.makes_networkd, Profile.makes_unattendedUpgrades, hlinks,
    fixedUnits, namedUnits, hfixed, hnamed]
  refine iff_of_eq ?_
  ac_rfl

end Units

/-! ### Labels of the units without names -/

theorem map_label_base : (basePackages.map packageInstalled ++ identityFiles c ++
    identityLive c).map (·.label) = baseLabels := by
  change ["pkg_" ++ key "sudo", "pkg_" ++ key "openssh-server", "pkg_" ++ key "ca-certificates",
    "file_" ++ key "/etc/hostname", "file_" ++ key "/etc/hosts", "hostname_live",
    "svc_" ++ key "ssh" ++ "_running"] = _
  decide +kernel

theorem map_label_routerUnits :
    (routerUnits c).map (·.label) = routerLabels c.graph.adblocking := by
  have hlabels : (routerUnits c).map (·.label) =
      ["pkg_" ++ key "isc-dhcp-server", "pkg_" ++ key "unbound",
        "file_" ++ key "/etc/sysctl.d/90-netconverge.conf", "file_" ++ key "/etc/dhcp/dhcpd.conf",
        "file_" ++ key "/etc/default/isc-dhcp-server"] ++
      (if c.graph.adblocking then ["adblock_list"] else []) ++
      ["file_" ++ key "/etc/unbound/unbound.conf.d/netconverge.conf",
        "sysctl_" ++ key "net.ipv4.ip_forward", "svc_" ++ key "isc-dhcp-server" ++ "_enabled",
        "svc_" ++ key "isc-dhcp-server" ++ "_running", "dhcpd_conf_valid",
        "svc_" ++ key "unbound" ++ "_enabled", "svc_" ++ key "unbound" ++ "_running",
        "unbound_conf_valid"] := by
    simp only [routerUnits, Phase.all, List.flatMap_cons, List.flatMap_nil, Profile.nameUnits,
      nameFiles]
    cases c.graph.adblocking <;> rfl
  rw [hlabels]
  cases c.graph.adblocking <;> decide +kernel

theorem path_of_ruleDocument {scope : RuleScope} {document : FirewallDocument}
    (h : ruleDocument scope c = .ok document) : document.path = match firewall c with
      | .iptables => "/etc/iptables/rules.v4"
      | .firewalld => "/etc/firewalld/zones/netconverge.xml" := by
  cases scope with
  | host =>
    cases h
    cases firewall c <;> rfl
  | router =>
    unfold ruleDocument at h
    cases hfirewall : firewall c with
    | iptables =>
      rw [hfirewall] at h
      obtain ⟨rules, -, rfl⟩ := map_eq_ok.mp h
      rfl
    | firewalld =>
      rw [hfirewall] at h
      cases h
      rfl

theorem map_label_rules {scope : RuleScope} {files live : List ConfigUnit}
    (hfiles : ruleFiles scope c = .ok files) (hlive : ruleLive scope c = .ok live) :
    (rulePackages c ++ files ++ live).map (·.label) = ruleLabels (firewall c) := by
  obtain ⟨document, hdocument, hfiles⟩ := bind_eq_ok.mp hfiles
  obtain ⟨_, -, hlive⟩ := bind_eq_ok.mp hlive
  cases hfiles
  cases hlive
  have hpath := path_of_ruleDocument hdocument
  unfold rulePackages
  cases hfirewall : firewall c with
  | iptables =>
    rw [hfirewall] at hpath
    change ["pkg_" ++ key "iptables", "pkg_" ++ key "iptables-persistent",
      "file_" ++ key document.path, "svc_" ++ key "netfilter-persistent" ++ "_enabled",
      "firewall_live"] = _
    rw [hpath]
    decide +kernel
  | firewalld =>
    rw [hfirewall] at hpath
    change ["pkg_" ++ key "firewalld", "file_" ++ key document.path,
      "svc_" ++ key "firewalld" ++ "_enabled", "firewall_live"] = _
    rw [hpath]
    decide +kernel

theorem map_label_hypervisor : (hypervisorPackages.map packageInstalled ++
    [(directoryExists imageDirectory).after hypervisorLabel,
      (serviceRunning "libvirtd").after hypervisorLabel]).map (·.label) = hypervisorLabels := by
  decide +kernel

theorem map_label_updates :
    ([packageInstalled updatePackage] ++ updateFiles ++ updateLive).map (·.label) =
      updateLabels := by
  decide +kernel

theorem map_label_fixedUnits {scope : RuleScope} {files live : List ConfigUnit}
    (hfiles : ruleFiles scope c = .ok files) (hlive : ruleLive scope c = .ok live) :
    (fixedUnits c (rulePackages c ++ files ++ live)).map (·.label) =
      fixedLabels c.machine.isRouter c.graph.adblocking (c.machine.is .hypervisor)
        (firewall c) := by
  have hlinks : [serviceEnabled linkService,
      (serviceRunning linkService).after (serviceEnabled linkService).label].map (·.label) =
      linkLabels := by
    decide +kernel
  rw [fixedUnits, fixedLabels, List.map_append, List.map_append, List.map_append, List.map_append,
    map_label_base, hlinks, List.map_append, map_label_rules hfiles hlive, map_label_updates]
  cases c.machine.isRouter <;> cases c.machine.is .hypervisor <;>
    simp only [if_true, if_false, Bool.false_eq_true, map_label_routerUnits, map_label_hypervisor,
      List.map_nil]

/-! ## Units for names -/

/-- The disks of a service that are looked for. -/
def disksOf (m : Machine) : List DiskSpec :=
  match m.service with
  | none => []
  | some spec => spec.disks.filter fun d => d.medium = .disk

/-- A unit is made for a name, and its label has a form with the words of that name. -/
inductive Named (c : Context) : Family → List String → ConfigUnit → Prop
  | account {name : String} {account : Account} {part : AccountPart} {u : ConfigUnit}
      (hname : name ∈ c.machine.admins)
      (haccount : (c.graph.get? name).bind (·.account) = some account)
      (hu : u ∈ accountUnits c name account)
      (hwords : words u.label = (Family.account part).words (keyWords name)) :
      Named c (.account part) (keyWords name) u
  | link {f : LinkFile} {kind : LinkFileKind} (hf : f ∈ linkFiles c) (hkind : f.kind = kind) :
      Named c (.link kind) (LinkFile.twoDigits f.weight :: keyWords f.link)
        (fileContent f.path f.body)
  | address {a : String × String} (ha : a ∈ liveAddresses c) :
      Named c .address (keyWords a.1) (addressUnit (serviceRunning linkService).label a.1 a.2)
  | disk {m : Machine} {disk : DiskSpec} (hhypervisor : c.machine.is .hypervisor = true)
      (hm : m ∈ c.graph.servicesOn c.label) (hdisk : disk ∈ disksOf m) :
      Named c .disk (keyWords m.label ++ keyWords disk.name)
        (diskUnit (directoryExists imageDirectory).label m.label disk)
  | snapshots {m : Machine} {spec : ServiceSpec} {hours : Nat}
      (hhypervisor : c.machine.is .hypervisor = true) (hm : m ∈ c.graph.servicesOn c.label)
      (hspec : m.service = some spec) (hhours : spec.backupHours = some hours) :
      Named c .snapshots (keyWords m.label)
        (fileContent ("/etc/cron.d/netconverge-backup-" ++ m.label) (snapshotTable m.label hours))
  | running {m : Machine} (hhypervisor : c.machine.is .hypervisor = true)
      (hm : m ∈ c.graph.servicesOn c.label) :
      Named c .running (keyWords m.label) (runningUnit (serviceRunning "libvirtd").label m)

theorem words_of_named {f : Family} {ws : List String} (h : Named c f ws u) :
    words u.label = f.words ws := by
  cases h with
  | account _ _ _ hwords => exact hwords
  | link _ hkind => exact hkind ▸ words_linkFile _
  | address => exact words_addressUnit _ _ _
  | disk => exact words_diskUnit _ _ _
  | snapshots => exact words_snapshots _ _
  | running => exact words_runningUnit _ _

theorem mem_serviceUnits {precondition : String} {m : Machine} :
    u ∈ serviceUnits precondition m ↔
      (∃ disk ∈ disksOf m, diskUnit precondition m.label disk = u) ∨
      ∃ spec hours, m.service = some spec ∧ spec.backupHours = some hours ∧
        fileContent ("/etc/cron.d/netconverge-backup-" ++ m.label)
          (snapshotTable m.label hours) = u := by
  unfold serviceUnits disksOf
  cases m.service with
  | none => simp
  | some spec => simp

theorem exists_named (h : u ∈ namedUnits c) : ∃ f ws, Named c f ws u := by
  simp only [namedUnits, List.mem_append, or_assoc] at h
  rcases h with h | h | h | h
  · obtain ⟨name, hname, hu⟩ := List.mem_flatMap.mp h
    split at hu
    · next account haccount =>
      have hwords := List.mem_map_of_mem (f := fun u => words u.label) hu
      rw [map_words_accountUnits] at hwords
      obtain ⟨part, -, hpart⟩ := List.mem_map.mp hwords
      exact ⟨_, _, .account hname haccount hu hpart.symm⟩
    · cases hu
  · obtain ⟨f, hf, rfl⟩ := List.mem_map.mp h
    exact ⟨_, _, .link hf rfl⟩
  · obtain ⟨a, ha, rfl⟩ := List.mem_map.mp h
    exact ⟨_, _, .address ha⟩
  · split at h
    · next hhypervisor =>
      rcases List.mem_append.mp h with h | h
      · obtain ⟨m, hm, hu⟩ := List.mem_flatMap.mp h
        rcases mem_serviceUnits.mp hu with ⟨disk, hdisk, rfl⟩ | ⟨spec, hours, hspec, hhours, rfl⟩
        · exact ⟨_, _, .disk hhypervisor hm hdisk⟩
        · exact ⟨_, _, .snapshots hhypervisor hm hspec hhours⟩
      · obtain ⟨m, hm, rfl⟩ := List.mem_map.mp h
        exact ⟨_, _, .running hhypervisor hm⟩
    · cases h

end NetworkCompiler.Provision
