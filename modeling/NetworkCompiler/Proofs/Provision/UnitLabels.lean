import NetworkCompiler.Proofs.ConfigUnit.Labels
import NetworkCompiler.Proofs.Text.Words
import NetworkCompiler.Provision.Profile

/-!
# Labels of the units of machines

The units of a machine are those that every machine of its kind has, whose labels are known
(`fixedLabels`), and those made for its administrators, its links and its virtual machines. The
latter have labels of a dozen forms (`Family`), each with the words of a name between words of its
own. From a label one can tell which form it has and which words are the name's
(`Family.words_inj`), and no label of the former kind has any of these forms.
-/

namespace NetworkCompiler.Provision

open ConfigUnit

/-! ## Forms of labels -/

/-- What a unit about an account is about. -/
inductive AccountPart where
  | user
  | group
  | keyDirectory
  | keyFile
  | directoryOwner
  | fileOwner
  | fileMode
  | password
  deriving DecidableEq

/-- What a unit that is made for a name is about. -/
inductive Family where
  | account (part : AccountPart)
  | link (kind : LinkFileKind)
  | address
  | disk
  | snapshots
  | running
  deriving DecidableEq

/-- All parts of an account. -/
def AccountPart.all : List AccountPart :=
  [user, group, keyDirectory, keyFile, directoryOwner, fileOwner, fileMode, password]

namespace Family

/-- All families. -/
def all : List Family :=
  AccountPart.all.map account ++
    [link .device, link .network, address, disk, snapshots, running]

/-- The words in front of a name. -/
def front : Family → List String
  | account .user => ["user"]
  | account .group => ["group", "sudo"]
  | account .keyDirectory => ["dir", "home"]
  | account .keyFile => ["file", "home"]
  | account .directoryOwner => ["owner", "home"]
  | account .fileOwner => ["owner", "home"]
  | account .fileMode => ["mode", "home"]
  | account .password => ["passwd"]
  | link _ => ["file", "etc", "systemd", "network"]
  | address => ["addr"]
  | disk => ["disk"]
  | snapshots => ["file", "etc", "cron", "d", "netconverge", "backup"]
  | running => ["vm"]

/-- The words behind a name. -/
def back : Family → List String
  | account .keyDirectory => ["ssh"]
  | account .keyFile => ["ssh", "authorized", "keys"]
  | account .directoryOwner => ["ssh"]
  | account .fileOwner => ["ssh", "authorized", "keys"]
  | account .fileMode => ["ssh", "authorized", "keys"]
  | link kind => [kind.ending]
  | running => ["running"]
  | _ => []

/-- The words of a label with a name of these words. -/
def words (f : Family) (ws : List String) : List String :=
  f.front ++ ws ++ f.back

theorem mem_all (f : Family) : f ∈ all := by
  cases f with
  | account part => cases part <;> decide
  | link kind => cases kind <;> decide
  | _ => decide

/-- Two forms of labels differ in front of the name or behind it. -/
theorem apart : ∀ f ∈ all, ∀ g ∈ all, f ≠ g →
    (¬f.front <+: g.front ∧ ¬g.front <+: f.front) ∨ (¬f.back <:+ g.back ∧ ¬g.back <:+ f.back) := by
  decide +kernel

/-- A label tells its form and the words of the name. -/
theorem words_inj {f g : Family} {ws vs : List String} (h : f.words ws = g.words vs) :
    f = g ∧ ws = vs := by
  obtain rfl : f = g := by
    by_contra hne
    rcases apart f f.mem_all g g.mem_all hne with ⟨hfg, hgf⟩ | ⟨hfg, hgf⟩
    · have hf : f.front <+: f.words ws := ⟨ws ++ f.back, (List.append_assoc _ _ _).symm⟩
      have hg : g.front <+: f.words ws := h ▸ ⟨vs ++ g.back, (List.append_assoc _ _ _).symm⟩
      exact (List.prefix_or_prefix_of_prefix hf hg).elim hfg hgf
    · have hf : f.back <:+ f.words ws := List.suffix_append _ _
      have hg : g.back <:+ f.words ws := h ▸ List.suffix_append _ _
      exact (List.suffix_or_suffix_of_suffix hf hg).elim hfg hgf
  have hinner := List.append_cancel_right h
  exact ⟨rfl, List.append_cancel_left hinner⟩

end Family

/-! ## Labels without names -/

/-- The labels of the units of every machine. -/
def baseLabels : List String :=
  ["pkg_sudo", "pkg_openssh_server", "pkg_ca_certificates", "file_etc_hostname", "file_etc_hosts",
    "hostname_live", "svc_ssh_running"]

/-- The labels of the service that brings up links. -/
def linkLabels : List String :=
  ["svc_systemd_networkd_enabled", "svc_systemd_networkd_running"]

/-- The labels of the services of a router. -/
def routerLabels (adblocking : Bool) : List String :=
  ["pkg_isc_dhcp_server", "pkg_unbound", "file_etc_sysctl_d_90_netconverge_conf",
    "file_etc_dhcp_dhcpd_conf", "file_etc_default_isc_dhcp_server"] ++
  (if adblocking then ["adblock_list"] else []) ++
  ["file_etc_unbound_unbound_conf_d_netconverge_conf", "sysctl_net_ipv4_ip_forward",
    "svc_isc_dhcp_server_enabled", "svc_isc_dhcp_server_running", "dhcpd_conf_valid",
    "svc_unbound_enabled", "svc_unbound_running", "unbound_conf_valid"]

/-- The labels of a firewall. -/
def ruleLabels : FirewallKind → List String
  | .iptables =>
    ["pkg_iptables", "pkg_iptables_persistent", "file_etc_iptables_rules_v4",
      "svc_netfilter_persistent_enabled", "firewall_live"]
  | .firewalld =>
    ["pkg_firewalld", "file_etc_firewalld_zones_netconverge_xml", "svc_firewalld_enabled",
      "firewall_live"]

/-- The labels of a hypervisor, without those of its services. -/
def hypervisorLabels : List String :=
  ["pkg_qemu_system_x86", "pkg_libvirt_daemon_system", "pkg_virtinst",
    "dir_var_lib_libvirt_images", "svc_libvirtd_running"]

/-- The labels of daily updates. -/
def updateLabels : List String :=
  ["pkg_unattended_upgrades", "file_etc_apt_apt_conf_d_20auto_upgrades",
    "svc_unattended_upgrades_enabled"]

/-- The labels of the units that every machine of a kind has. -/
def fixedLabels (router adblocking hypervisor : Bool) (firewall : FirewallKind) : List String :=
  baseLabels ++ linkLabels ++
    ((if router then routerLabels adblocking else []) ++ ruleLabels firewall) ++
    (if hypervisor then hypervisorLabels else []) ++ updateLabels

theorem routerLabels_sublist (adblocking : Bool) :
    (routerLabels adblocking).Sublist (routerLabels true) := by
  refine ((List.Sublist.refl _).append ?_).append (List.Sublist.refl _)
  cases adblocking with
  | false => exact List.nil_sublist _
  | true => exact List.Sublist.refl _

/-- A router that is a hypervisor has all of these labels. -/
theorem fixedLabels_sublist (router adblocking hypervisor : Bool) (firewall : FirewallKind) :
    (fixedLabels router adblocking hypervisor firewall).Sublist
      (fixedLabels true true true firewall) := by
  have hrouter : (if router then routerLabels adblocking else []).Sublist (routerLabels true) := by
    cases router with
    | false => exact List.nil_sublist _
    | true => exact routerLabels_sublist adblocking
  have hhypervisor : (if hypervisor then hypervisorLabels else []).Sublist hypervisorLabels := by
    cases hypervisor with
    | false => exact List.nil_sublist _
    | true => exact List.Sublist.refl _
  exact (((List.Sublist.refl _).append (hrouter.append (List.Sublist.refl _))).append
    hhypervisor).append (List.Sublist.refl _)

theorem nodup_fixedLabels (router adblocking hypervisor : Bool) (firewall : FirewallKind) :
    (fixedLabels router adblocking hypervisor firewall).Nodup := by
  have hall : (fixedLabels true true true firewall).Nodup := by
    cases firewall <;> decide +kernel
  exact hall.sublist (fixedLabels_sublist router adblocking hypervisor firewall)

/-- No such label has one of the forms with a name. -/
theorem words_fixedLabels_ne {router adblocking hypervisor : Bool} {firewall : FirewallKind}
    {label : String} (h : label ∈ fixedLabels router adblocking hypervisor firewall) (f : Family)
    (ws : List String) : ConfigUnit.words label ≠ f.words ws := by
  have hfronts : ∀ label ∈ fixedLabels true true true firewall, ∀ f ∈ Family.all,
      ¬f.front <+: ConfigUnit.words label := by
    cases firewall <;> decide +kernel
  have hmem := (fixedLabels_sublist router adblocking hypervisor firewall).subset h
  intro heq
  exact hfronts label hmem f f.mem_all (heq ▸ ⟨ws ++ f.back, (List.append_assoc _ _ _).symm⟩)

/-! ## Labels with names -/

/-- A label with the key of a path has the form whose words stand around the name in it. -/
theorem words_path {f : Family} {word path : String} {front ws back : List String}
    (hpath : keyWords path = front ++ ws ++ back) (hword : word.toList.getLast? = some '_')
    (hfront : ConfigUnit.words word ++ front = f.front) (hback : back = f.back) :
    ConfigUnit.words (word ++ key path) = f.words ws := by
  rw [words_append_left hword, words_key, hpath, Family.words, ← hfront, hback]
  simp only [List.append_assoc]

/-- A label that ends with the key of a name has the form whose words stand in front of it. -/
theorem words_name {f : Family} {word : String} (name : String)
    (hword : word.toList.getLast? = some '_') (hfront : ConfigUnit.words word = f.front)
    (hback : f.back = []) : ConfigUnit.words (word ++ key name) = f.words (keyWords name) := by
  have hpath : keyWords name = [] ++ keyWords name ++ [] := by simp
  exact words_path hpath hword (by rw [List.append_nil, hfront]) hback.symm

section Accounts

variable (name : String)

theorem words_userExists (fullname : String) :
    ConfigUnit.words (userExists name fullname).label =
      (Family.account .user).words (keyWords name) := by
  rw [label_userExists]
  exact words_name name (by decide) (by decide) rfl

theorem words_groupMember :
    ConfigUnit.words (groupMember name "sudo").label =
      (Family.account .group).words (keyWords name) := by
  rw [label_groupMember]
  exact words_name name (by decide) (by decide) rfl

theorem words_passwordUnit (accountLabel passphrase : String) :
    ConfigUnit.words (passwordUnit name accountLabel passphrase).label =
      (Family.account .password).words (keyWords name) := by
  have hlabel : (passwordUnit name accountLabel passphrase).label = "passwd_" ++ key name := rfl
  rw [hlabel]
  exact words_name name (by decide) (by decide) rfl

/-- The parts of an account's key, in the order of the units about them. -/
def keyParts : List AccountPart :=
  [.keyDirectory, .keyFile, .directoryOwner, .fileOwner, .fileMode]

theorem map_words_keyUnits (accountLabel sshkey : String) :
    (keyUnits name accountLabel sshkey).map (fun u => ConfigUnit.words u.label) =
      keyParts.map fun part => (Family.account part).words (keyWords name) := by
  have hdirectory : keyWords s!"/home/{name}/.ssh" = ["home"] ++ keyWords name ++ ["ssh"] := by
    change keyWords (("/home/" ++ name) ++ "/.ssh") = _
    rw [keyWords_append_right (by decide), keyWords_append_left (by decide)]
    rfl
  have hfile : keyWords (s!"/home/{name}/.ssh" ++ "/authorized_keys") =
      ["home"] ++ keyWords name ++ ["ssh", "authorized", "keys"] := by
    rw [keyWords_append_right (by decide), hdirectory, List.append_assoc]
    rfl
  simp only [keyUnits, keyParts, List.map_cons, List.map_nil, label_after, label_directoryExists,
    label_fileContent, label_fileOwner, label_fileMode]
  rw [words_path (f := .account .keyDirectory) hdirectory (by decide) (by decide) rfl,
    words_path (f := .account .keyFile) hfile (by decide) (by decide) rfl,
    words_path (f := .account .directoryOwner) hdirectory (by decide) (by decide) rfl,
    words_path (f := .account .fileOwner) hfile (by decide) (by decide) rfl,
    words_path (f := .account .fileMode) hfile (by decide) (by decide) rfl]

/-- The parts of an account, in the order of the units about them. -/
def accountParts (account : Account) (autogenpasswds : Bool) : List AccountPart :=
  [.user, .group] ++ (if account.sshkey.isSome then keyParts else []) ++
    if autogenpasswds then [.password] else []

theorem nodup_accountParts (account : Account) (autogenpasswds : Bool) :
    (accountParts account autogenpasswds).Nodup := by
  rw [accountParts]
  cases account.sshkey.isSome <;> cases autogenpasswds <;> decide

theorem map_words_accountUnits (c : Context) (account : Account) :
    (accountUnits c name account).map (fun u => ConfigUnit.words u.label) =
      (accountParts account c.graph.autogenpasswds).map fun part =>
        (Family.account part).words (keyWords name) := by
  simp only [accountUnits, accountParts, List.map_append, List.map_cons, List.map_nil, label_after,
    accountUnit, words_userExists, words_groupMember]
  refine congrArg₂ (· ++ ·) (congrArg _ ?_) ?_
  · cases account.sshkey with
    | none => rfl
    | some key => exact map_words_keyUnits name _ key
  · cases c.graph.autogenpasswds with
    | false => rfl
    | true =>
      simp only [if_true, List.map_cons, List.map_nil, words_passwordUnit]

end Accounts

/-! ### Links -/

/-- A number is one word. -/
theorem keyWords_of_digits {s : String} (hne : s ≠ "") (h : ∀ c ∈ s.toList, c.isDigit = true) :
    keyWords s = [s] := by
  have hfold : s.toList.map foldChar = s.toList :=
    map_foldChar fun c hc => .inr (.inl (isDigit_iff.mp (h c hc)))
  have hsep : '_' ∉ s.toList := fun hmem => by cases h _ hmem
  rw [keyWords_eq, hfold, String.ofList_toList, ConfigUnit.words, Text.splitAt,
    Text.Chars.splitAt_of_not_mem hsep, List.map_singleton, String.ofList_toList]
  simp [hne]

theorem isDigit_of_mem_twoDigits {n : Nat} {c : Char} (h : c ∈ (LinkFile.twoDigits n).toList) :
    c.isDigit = true := by
  have hdigits : ∀ c ∈ (toString n).toList, c.isDigit = true := fun c hc =>
    Text.Chars.isDigit_of_mem_toString hc
  rw [LinkFile.twoDigits] at h
  split_ifs at h
  · rw [String.toList_append, List.mem_append] at h
    rcases h with h | h
    · obtain rfl : c = '0' := List.mem_singleton.mp h
      rfl
    · exact hdigits c h
  · exact hdigits c h

/-- A number is read back from its digits, of which there are at least two. -/
theorem twoDigits_inj {m n : Nat} (h : LinkFile.twoDigits m = LinkFile.twoDigits n) : m = n := by
  have hread : ∀ n, Text.Chars.natural? (LinkFile.twoDigits n).toList = some n := by
    have hsmall : ∀ n < 10, Text.Chars.natural? ("0" ++ toString n).toList = some n := by decide
    intro n
    rw [LinkFile.twoDigits]
    split_ifs with hn
    · exact hsmall n hn
    · exact Text.Chars.natural?_toString n
  exact Option.some.inj ((hread m).symm.trans ((congrArg _ (congrArg _ h)).trans (hread n)))

theorem twoDigits_ne_empty (n : Nat) : LinkFile.twoDigits n ≠ "" := by
  have hword := (Text.isWord_toString n).1
  intro h
  rw [LinkFile.twoDigits] at h
  split_ifs at h
  · have hchars := congrArg String.toList h
    rw [String.toList_append] at hchars
    exact List.append_ne_nil_of_left_ne_nil (by decide) _ hchars
  · exact hword (String.toList_eq_nil_iff.mpr h)

theorem path_linkFile (f : LinkFile) : f.path =
    "/etc/systemd/network/" ++ LinkFile.twoDigits f.weight ++ "-" ++ f.link ++ "." ++
      f.kind.ending :=
  rfl

/-- The words of the path of a link's file. -/
theorem keyWords_linkPath (f : LinkFile) : keyWords f.path =
    ["etc", "systemd", "network"] ++ (LinkFile.twoDigits f.weight :: keyWords f.link) ++
      [f.kind.ending] := by
  have hdirectory : keyWords "/etc/systemd/network/" = ["etc", "systemd", "network"] := by
    decide +kernel
  have hweight : keyWords (LinkFile.twoDigits f.weight) = [LinkFile.twoDigits f.weight] :=
    keyWords_of_digits (twoDigits_ne_empty f.weight) fun c => isDigit_of_mem_twoDigits
  have hending : keyWords f.kind.ending = [f.kind.ending] := by
    cases f.kind <;> decide
  rw [path_linkFile, keyWords_append_sep (by decide), keyWords_append_sep (by decide),
    keyWords_append_left (by decide +kernel), hdirectory, hweight, hending]
  rfl

theorem words_linkFile (f : LinkFile) :
    ConfigUnit.words (fileContent f.path f.body).label =
      (Family.link f.kind).words (LinkFile.twoDigits f.weight :: keyWords f.link) := by
  have hfront : ConfigUnit.words "file_" ++ ["etc", "systemd", "network"] =
      (Family.link f.kind).front := by
    rw [Family.front]
    decide
  rw [label_fileContent]
  exact words_path (keyWords_linkPath f) (by decide) hfront rfl

theorem words_addressUnit (precondition name address : String) :
    ConfigUnit.words (addressUnit precondition name address).label =
      Family.address.words (keyWords name) := by
  have hlabel : (addressUnit precondition name address).label = "addr_" ++ key name := rfl
  rw [hlabel]
  exact words_name name (by decide) (by decide) rfl

/-! ### Virtual machines -/

theorem label_diskUnit (precondition service : String) (disk : DiskSpec) :
    (diskUnit precondition service disk).label =
      "disk_" ++ key service ++ "_" ++ key disk.name :=
  rfl

theorem words_diskUnit (precondition service : String) (disk : DiskSpec) :
    ConfigUnit.words (diskUnit precondition service disk).label =
      Family.disk.words (keyWords service ++ keyWords disk.name) := by
  have hfront : ConfigUnit.words "disk_" = ["disk"] := by decide
  rw [label_diskUnit, words_append_sep, words_append_left (by decide), words_key, words_key, hfront,
    List.append_assoc]
  exact (List.append_nil _).symm

theorem words_snapshots (service body : String) :
    ConfigUnit.words (fileContent ("/etc/cron.d/netconverge-backup-" ++ service) body).label =
      Family.snapshots.words (keyWords service) := by
  have hpath : keyWords ("/etc/cron.d/netconverge-backup-" ++ service) =
      ["etc", "cron", "d", "netconverge", "backup"] ++ keyWords service ++ [] := by
    have hfront : keyWords "/etc/cron.d/netconverge-backup-" =
        ["etc", "cron", "d", "netconverge", "backup"] := by
      decide +kernel
    rw [keyWords_append_left (by decide +kernel), hfront, List.append_nil]
  rw [label_fileContent]
  exact words_path hpath (by decide) (by decide) rfl

theorem words_runningUnit (precondition : String) (m : Machine) :
    ConfigUnit.words (runningUnit precondition m).label =
      Family.running.words (keyWords m.label) := by
  have hlabel : (runningUnit precondition m).label = "vm_" ++ key m.label ++ "_running" := rfl
  have hwords : ConfigUnit.words "vm_" = ["vm"] ∧ ConfigUnit.words "_running" = ["running"] := by
    decide
  rw [hlabel, words_append_right (by decide), words_append_left (by decide), words_key, hwords.1,
    hwords.2]
  rfl

end NetworkCompiler.Provision
