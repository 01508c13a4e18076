import NetworkCompiler.Proofs.Network.Consistency
import NetworkCompiler.Proofs.Provision.InnerLinks
import NetworkCompiler.Proofs.Provision.MachineUnits
import NetworkCompiler.Proofs.Provision.Preconditions
import NetworkCompiler.Proofs.Provision.RenderedAddresses
import NetworkCompiler.Proofs.Shell.Documents

/-!
# Names in labels

A label keeps the words of a name and forgets what stands between them, so two names can end up in
one label. The names of a machine that must not are its administrators, its links, its addresses,
its services and their disks (`NamesApart`). That is all there is to it
(`sameFact_iff_namesApart`) : if they have different keys then a label stands for one fact, and if
two of them have not then two facts share a label. `user_label_of_two_names` is a network with two
such administrators.
-/

namespace NetworkCompiler.Provision

open ConfigUnit

variable {c : Context} {u : ConfigUnit}

/-! ## Names and facts -/

/-- Two units check and mend the same. -/
def SameFact (u v : ConfigUnit) : Prop :=
  u.audit = v.audit ∧ u.expected = v.expected ∧ u.config = v.config

theorem SameFact.refl (u : ConfigUnit) : SameFact u u :=
  ⟨rfl, rfl, rfl⟩

/-- Names of a machine that are about different things have different keys. -/
structure NamesApart (c : Context) : Prop where
  admins : ∀ a ∈ c.machine.admins, ∀ b ∈ c.machine.admins, key a = key b → a = b
  /-- Link files of one weight and kind. -/
  links : ∀ f ∈ linkFiles c, ∀ g ∈ linkFiles c, f.weight = g.weight → f.kind = g.kind →
    key f.link = key g.link → f.link = g.link ∧ f.body = g.body
  addresses : ∀ a ∈ liveAddresses c, ∀ b ∈ liveAddresses c, key a.1 = key b.1 → a = b
  services : c.machine.is .hypervisor = true → ∀ m ∈ c.graph.servicesOn c.label,
    ∀ n ∈ c.graph.servicesOn c.label, key m.label = key n.label → m.label = n.label
  /-- The label of a disk has the keys of its service and of its own name. -/
  disks : c.machine.is .hypervisor = true → ∀ m ∈ c.graph.servicesOn c.label,
    ∀ n ∈ c.graph.servicesOn c.label, ∀ d ∈ disksOf m, ∀ e ∈ disksOf n,
      key m.label ++ "_" ++ key d.name = key n.label ++ "_" ++ key e.name →
        d.filename = e.filename

instance (c : Context) : Decidable (NamesApart c) :=
  decidable_of_iff (_ ∧ _ ∧ _ ∧ _ ∧ _)
    ⟨fun ⟨admins, links, addresses, services, disks⟩ =>
      ⟨admins, links, addresses, services, disks⟩,
    fun h => ⟨h.admins, h.links, h.addresses, h.services, h.disks⟩⟩

/-- The units of an account have labels of their own. -/
theorem eq_of_accountUnits {name : String} {account : Account} {u v : ConfigUnit}
    (hu : u ∈ accountUnits c name account) (hv : v ∈ accountUnits c name account)
    (h : words u.label = words v.label) : u = v := by
  have hnd : ((accountUnits c name account).map fun u => words u.label).Nodup := by
    rw [map_words_accountUnits]
    refine (nodup_accountParts account c.graph.autogenpasswds).map fun part part' hparts => ?_
    exact Family.account.inj (Family.words_inj hparts).1
  exact List.inj_on_of_nodup_map hnd hu hv h

/-! ### What units say about names -/

/-- A text is determined by one that it stands in. -/
theorem between_inj {front back s t : String} (h : front ++ s ++ back = front ++ t ++ back) :
    s = t := by
  simpa using h

/-- What a command says about a quoted text determines it. -/
theorem quoted_inj {front back s t : String}
    (h : front ++ Shell.quote s ++ back = front ++ Shell.quote t ++ back) : s = t :=
  Shell.quote_inj (between_inj h)

theorem label_eq_diskUnit {precondition precondition' s t : String} {d e : DiskSpec} :
    (diskUnit precondition s d).label = (diskUnit precondition' t e).label ↔
      key s ++ "_" ++ key d.name = key t ++ "_" ++ key e.name := by
  have hassoc : ∀ k l : String, "disk_" ++ k ++ "_" ++ l = "disk_" ++ (k ++ "_" ++ l) :=
    fun k l => by rw [String.append_assoc, String.append_assoc, String.append_assoc]
  rw [label_diskUnit, label_diskUnit, hassoc, hassoc, String.append_right_inj]

theorem fact_diskUnit (precondition service : String) (disk : DiskSpec) :
    (diskUnit precondition service disk).audit =
        "test -f " ++ Shell.quote (imageDirectory ++ "/" ++ disk.filename) ++ " && echo present" ∧
      (diskUnit precondition service disk).expected = "present" ∧
      (diskUnit precondition service disk).config = none :=
  ⟨rfl, rfl, rfl⟩

section Network

variable (hnd : (c.graph.machines.map (·.label)).Nodup) (hapart : NamesApart c)
include hnd hapart

/-- Services with the same words in their labels are one. -/
theorem eq_of_servicesOn (hhypervisor : c.machine.is .hypervisor = true) {m n : Machine}
    (hm : m ∈ c.graph.servicesOn c.label) (hn : n ∈ c.graph.servicesOn c.label)
    (h : keyWords m.label = keyWords n.label) : m = n :=
  List.inj_on_of_nodup_map hnd (List.mem_filter.mp hm).1 (List.mem_filter.mp hn).1
    (hapart.services hhypervisor _ hm _ hn (key_eq_key_iff.mpr h))

/-- Units with one label are about the same thing if names that are not have different keys. -/
theorem sameFact_of_named {f g : Family} {ws vs : List String} {u v : ConfigUnit}
    (hu : Named c f ws u) (hv : Named c g vs v) (hlabel : u.label = v.label) : SameFact u v := by
  have hwords := congrArg words hlabel
  rw [words_of_named hu, words_of_named hv] at hwords
  obtain ⟨rfl, hws⟩ := Family.words_inj hwords
  cases hu with
  | account hname haccount hu _ =>
    cases hv with
    | account hname' haccount' hv _ =>
      obtain rfl := hapart.admins _ hname _ hname' (key_eq_key_iff.mpr hws)
      obtain rfl := Option.some.inj (haccount.symm.trans haccount')
      rw [eq_of_accountUnits hu hv (congrArg words hlabel)]
      exact .refl _
  | link hf hkind =>
    cases hv with
    | link hg hkind' =>
      obtain ⟨hweight, hlink⟩ := List.cons.inj hws
      obtain ⟨hlink, hbody⟩ := hapart.links _ hf _ hg (twoDigits_inj hweight)
        (hkind.trans hkind'.symm) (key_eq_key_iff.mpr hlink)
      rw [path_linkFile, path_linkFile, hweight, hlink, hkind, hkind', hbody]
      exact .refl _
  | address ha =>
    cases hv with
    | address hb =>
      rw [hapart.addresses _ ha _ hb (key_eq_key_iff.mpr hws)]
      exact .refl _
  | disk hhypervisor hm hd =>
    cases hv with
    | disk _ hn he =>
      have hfile := hapart.disks hhypervisor _ hm _ hn _ hd _ he (label_eq_diskUnit.mp hlabel)
      simp only [SameFact, fact_diskUnit, hfile, and_self]
  | snapshots hhypervisor hm hspec hhours =>
    cases hv with
    | snapshots _ hn hspec' hhours' =>
      obtain rfl := eq_of_servicesOn hnd hapart hhypervisor hm hn hws
      obtain rfl := Option.some.inj (hspec.symm.trans hspec')
      obtain rfl := Option.some.inj (hhours.symm.trans hhours')
      exact .refl _
  | running hhypervisor hm =>
    cases hv with
    | running _ hn =>
      rw [eq_of_servicesOn hnd hapart hhypervisor hm hn hws]
      exact .refl _

end Network

/-! ### The other way round -/

theorem sections_ne_nil {f : LinkFile} (hf : f ∈ linkFiles c) : f.sections ≠ [] := by
  have hdevice : ∀ i, ∀ f ∈ (LinkFile.device? i).toList, f.sections ≠ [] := by
    intro i f hf
    rw [Option.mem_toList] at hf
    cases hkind : i.kind with
    | bond | dummy =>
      simp only [LinkFile.device?, hkind, Option.some.injEq] at hf
      exact hf ▸ List.cons_ne_nil _ _
    | vlan =>
      simp only [LinkFile.device?, hkind, Option.map_eq_some_iff] at hf
      obtain ⟨_, -, rfl⟩ := hf
      exact List.cons_ne_nil _ _
    | _ => simp [LinkFile.device?, hkind] at hf
  unfold linkFiles at hf
  split at hf
  · simp only [routerFiles, List.mem_append, or_assoc] at hf
    rcases hf with hf | hf | hf | hf
    · obtain ⟨port, -, rfl⟩ := List.mem_map.mp hf
      exact List.cons_ne_nil _ _
    · rcases List.mem_append.mp hf with hf | hf
      · exact hdevice _ f hf
      · rw [List.mem_singleton.mp hf]
        exact List.cons_ne_nil _ _
    · obtain ⟨vlan, -, hf⟩ := List.mem_flatMap.mp hf
      rcases List.mem_append.mp hf with hf | hf
      · exact hdevice _ f hf
      · rw [List.mem_singleton.mp hf]
        exact List.cons_ne_nil _ _
    · obtain ⟨wan, -, rfl⟩ := List.mem_map.mp hf
      exact List.cons_ne_nil _ _
  · obtain ⟨i, -, rfl⟩ := List.mem_map.mp hf
    exact List.cons_ne_nil _ _

/-- The content of a link's file ends with a line end already. -/
theorem withLineEnd_body {f : LinkFile} (hf : f ∈ linkFiles c) : withLineEnd f.body = f.body := by
  have hlines : f.lines ≠ [] := by
    obtain ⟨s, sections, hsections⟩ := List.exists_cons_of_ne_nil (sections_ne_nil hf)
    have hmem : "[" ++ s.name ++ "]" ∈ f.lines := by
      rw [LinkFile.lines, hsections]
      exact mem_intercalate_of_mem List.mem_cons_self List.mem_cons_self
    exact List.ne_nil_of_mem hmem
  obtain ⟨ls, l, hsplit⟩ := List.eq_nil_or_concat f.lines |>.resolve_left hlines
  have hend : f.body.toList.getLast? = some '\n' := by
    rw [LinkFile.body_eq, hsplit, Text.unlines]
    simp [String.join_append, String.toList_append]
  rw [withLineEnd, if_pos hend]

theorem namesApart_of_sameFact
    (haccounts : ∀ name ∈ c.machine.admins,
      ∃ account, (c.graph.get? name).bind (·.account) = some account)
    (h : ∀ u ∈ namedUnits c, ∀ v ∈ namedUnits c, u.label = v.label → SameFact u v) :
    NamesApart c where
  admins := by
    intro a ha b hb hkey
    have haudit : ∀ name fullname, (userExists name fullname).audit =
        "id -u " ++ Shell.quote name ++ " >/dev/null 2>&1 && echo yes" := fun _ _ => rfl
    have hmem : ∀ name ∈ c.machine.admins, ∃ account : Account,
        accountUnit name account ∈ namedUnits c := by
      intro name hname
      obtain ⟨account, haccount⟩ := haccounts name hname
      refine ⟨account, List.mem_append_left _ (List.mem_append_left _ (List.mem_append_left _ ?_))⟩
      refine List.mem_flatMap.mpr ⟨name, hname, ?_⟩
      rw [haccount]
      exact List.mem_append_left _ (List.mem_append_left _ List.mem_cons_self)
    obtain ⟨account, hu⟩ := hmem a ha
    obtain ⟨account', hv⟩ := hmem b hb
    have hfact := h _ hu _ hv (congrArg ("user_" ++ ·) hkey)
    have hsame : (userExists a account.fullname).audit = (userExists b account'.fullname).audit :=
      hfact.1
    rw [haudit, haudit] at hsame
    exact quoted_inj hsame
  links := by
    intro f hf g hg hweight hkind hkey
    have hmem : ∀ f ∈ linkFiles c, fileContent f.path f.body ∈ namedUnits c := fun f hf =>
      List.mem_append_left _ (List.mem_append_left _ (List.mem_append_right _
        (List.mem_map_of_mem hf)))
    have haudit : ∀ path body, (fileContent path body).audit =
        "cksum < " ++ Shell.quote path ++ " 2>/dev/null" := fun _ _ => rfl
    have hconfig : ∀ path body, (fileContent path body).config =
        some ("mkdir -p " ++ Shell.quote (directoryOf path) ++ " && cat > " ++ Shell.quote path ++
          " <<'" ++ fileEnd ++ "'\n" ++ withLineEnd body ++ fileEnd) := fun _ _ => rfl
    have hpathKey : key f.path = key g.path := by
      rw [key_eq_key_iff, keyWords_linkPath, keyWords_linkPath, hweight, hkind,
        key_eq_key_iff.mp hkey]
    obtain ⟨hsame, -, hcommand⟩ :=
      h _ (hmem f hf) _ (hmem g hg) (congrArg ("file_" ++ ·) hpathKey)
    rw [haudit, haudit] at hsame
    have hpath := quoted_inj hsame
    rw [hconfig, hconfig, hpath] at hcommand
    have hbody := between_inj (Option.some.inj hcommand)
    rw [withLineEnd_body hf, withLineEnd_body hg] at hbody
    rw [path_linkFile, path_linkFile, hweight, hkind] at hpath
    exact ⟨between_inj ((String.append_left_inj _).mp hpath), hbody⟩
  addresses := by
    intro a ha b hb hkey
    have hmem : ∀ a ∈ liveAddresses c,
        addressUnit (serviceRunning linkService).label a.1 a.2 ∈ namedUnits c := fun a ha =>
      List.mem_append_left _ (List.mem_append_right _ (List.mem_map_of_mem ha))
    have haudit : ∀ precondition name address, (addressUnit precondition name address).audit =
        "ip -4 -o addr show dev " ++ Shell.quote name ++
          " | awk '\x7bprint $4\x7d' | head -n 1" := fun _ _ _ => rfl
    have hexpected : ∀ precondition name address,
        (addressUnit precondition name address).expected = address := fun _ _ _ => rfl
    obtain ⟨hsame, hout, -⟩ := h _ (hmem a ha) _ (hmem b hb) (congrArg ("addr_" ++ ·) hkey)
    rw [haudit, haudit] at hsame
    rw [hexpected, hexpected] at hout
    exact Prod.ext (quoted_inj hsame) hout
  services := by
    intro hhypervisor m hm n hn hkey
    have hmem : ∀ m ∈ c.graph.servicesOn c.label,
        runningUnit (serviceRunning "libvirtd").label m ∈ namedUnits c := fun m hm => by
      rw [namedUnits, if_pos hhypervisor]
      exact List.mem_append_right _ (List.mem_append_right _ (List.mem_map_of_mem hm))
    have haudit : ∀ precondition m, (runningUnit precondition m).audit =
        "virsh domstate " ++ Shell.quote m.label := fun _ _ => rfl
    obtain ⟨hsame, -⟩ := h _ (hmem m hm) _ (hmem n hn)
      (congrArg (fun k => "vm_" ++ k ++ "_running") hkey)
    rw [haudit, haudit, String.append_right_inj] at hsame
    exact Shell.quote_inj hsame
  disks := by
    intro hhypervisor m hm n hn d hd e he hkey
    have hmem : ∀ m ∈ c.graph.servicesOn c.label, ∀ d ∈ disksOf m,
        diskUnit (directoryExists imageDirectory).label m.label d ∈ namedUnits c := by
      intro m hm d hd
      rw [namedUnits, if_pos hhypervisor]
      refine List.mem_append_right _ (List.mem_append_left _ (List.mem_flatMap.mpr ⟨m, hm, ?_⟩))
      exact mem_serviceUnits.mpr (.inl ⟨d, hd, rfl⟩)
    obtain ⟨hsame, -⟩ := h _ (hmem m hm d hd) _ (hmem n hn e he) (label_eq_diskUnit.mpr hkey)
    simp only [fact_diskUnit] at hsame
    have hpath := quoted_inj hsame
    exact (String.append_right_inj _).mp hpath

/-! ## Described networks -/

/-- A list in which a label comes again is rejected, and nothing else is wrong with it. -/
theorem checkedUnits_of_not_nodup {units : List ConfigUnit} (h : machineUnits c = .ok units)
    (hnd : ¬(units.map (·.label)).Nodup) :
    ∃ u ∈ units, checkedUnits c = .error (.compile (.duplicateUnit c.label u.label)) := by
  cases hcheck : checkUnits c.label units with
  | ok =>
    have hordered : IsOrdered [] units := checkUnits_eq_ok.mp hcheck
    exact absurd hordered.nodup_labels.1 hnd
  | error e =>
    obtain ⟨u, hu, rfl⟩ := checkUnits_of_isSupplied (isSupplied_machineUnits h) hcheck
    refine ⟨u, hu, ?_⟩
    rw [checkedUnits, h]
    exact bind_eq_error.mpr (.inr ⟨units, rfl, bind_eq_error.mpr (.inl (by rw [hcheck]; rfl))⟩)

/-- The units of a machine that lists no profiles : units with one label are about the same thing
exactly if no two names of the machine are folded into one label (`NamesApart`), and if two are,
then the machine is rejected. -/
theorem sameFact_iff_namesApart (name : String) (d : Description) (s : Settings)
    (n : CompiledNetwork) (secrets : Secrets) (c : Context) (units : List ConfigUnit)
    (hn : (CompiledNetwork.ofDescription name d s).result = .ok n)
    (hc : c ∈ managedContexts n secrets) (hprofiles : c.machine.profiles = [])
    (h : machineUnits c = .ok units) :
    ((∀ u ∈ units, ∀ v ∈ units, u.label = v.label → SameFact u v) ↔ NamesApart c) ∧
    (¬NamesApart c →
      ∃ u ∈ units, checkedUnits c = .error (.compile (.duplicateUnit c.label u.label))) := by
  obtain ⟨hg, -⟩ := CompiledNetwork.ofDescription_eq_ok hn
  obtain ⟨rfl, hm, -⟩ := mem_managedContexts hc
  have hm : c.machine ∈ c.graph.machines := List.mem_of_getElem? hm
  have hnd : (c.graph.machines.map (·.label)).Nodup := Graph.nodup_labels hg
  obtain ⟨files, live, hfiles, hlive⟩ := exists_rules hprofiles h
  have hmem := fun u => mem_machineUnits hprofiles h hfiles hlive (u := u)
  have hlabels := map_label_fixedUnits hfiles hlive
  have hiff : (∀ u ∈ units, ∀ v ∈ units, u.label = v.label → SameFact u v) ↔ NamesApart c := by
    refine ⟨fun hsame => ?_, fun hapart u hu v hv hlabel => ?_⟩
    · refine namesApart_of_sameFact (fun user huser => Graph.exists_account hg hm huser) ?_
      exact fun u hu v hv => hsame u ((hmem u).mpr (.inr hu)) v ((hmem v).mpr (.inr hv))
    -- a fixed label has none of the forms of the others, so the two units are of one sort
    have hfixed : ∀ u ∈ fixedUnits c (rulePackages c ++ files ++ live), ∀ v ∈ namedUnits c,
        u.label ≠ v.label := by
      intro u hu v hv hlabel
      obtain ⟨f, ws, hnamed⟩ := exists_named hv
      refine words_fixedLabels_ne (hlabels ▸ List.mem_map_of_mem hu) f ws ?_
      exact (congrArg words hlabel).trans (words_of_named hnamed)
    rcases (hmem u).mp hu with hu | hu <;> rcases (hmem v).mp hv with hv | hv
    · have hnd := nodup_fixedLabels c.machine.isRouter c.graph.adblocking (c.machine.is .hypervisor)
        (firewall c)
      rw [← hlabels] at hnd
      rw [List.inj_on_of_nodup_map hnd hu hv hlabel]
      exact .refl _
    · exact absurd hlabel (hfixed u hu v hv)
    · exact absurd hlabel.symm (hfixed v hv u hu)
    · obtain ⟨_, _, hu⟩ := exists_named hu
      obtain ⟨_, _, hv⟩ := exists_named hv
      exact sameFact_of_named hnd hapart hu hv hlabel
  refine ⟨hiff, fun hnot => checkedUnits_of_not_nodup h fun hnd => hnot (hiff.mp ?_)⟩
  intro u hu v hv hlabel
  rw [List.inj_on_of_nodup_map hnd hu hv hlabel]
  exact .refl _

/-- A hypervisor with two services, one of which asks for snapshots, and two administrators. -/
def hostedNamesLab : Description where
  servers := [
    ("router", { types := ["router"], wan := [("eth1", {})] }),
    ("vm", { types := ["hypervisor"], mac := some "02:00:00:00:00:01", admins := ["eva", "bob"] }),
    ("web", { types := ["service"], hypervisor := some "vm", backups := some 6 }),
    ("mail", { types := ["service"], hypervisor := some "vm" })]
  users := [("eva", {}), ("bob", {})]

theorem sameFact_iff_namesApart_hosted :
    ∃ n c units, (CompiledNetwork.ofDescription "lab" hostedNamesLab .default).result = .ok n ∧
      c ∈ managedContexts n .builtin ∧ c.label = "vm" ∧ c.machine.profiles = [] ∧
      machineUnits c = .ok units ∧ NamesApart c ∧
      ∀ u ∈ units, ∀ v ∈ units, u.label = v.label → SameFact u v := by
  have hlab : (CompiledNetwork.ofDescription "lab" hostedNamesLab .default).result.map (fun n =>
      decide (∃ c ∈ managedContexts n .builtin, c.label = "vm" ∧ c.machine.profiles = [] ∧
        (machineUnits c).toOption.isSome ∧ NamesApart c)) = .ok true := by
    decide +kernel
  obtain ⟨n, hn, hlab⟩ := map_eq_ok.mp hlab
  obtain ⟨c, hc, hlabel, hprofiles, hunits, hapart⟩ := of_decide_eq_true hlab
  cases h : machineUnits c with
  | error e => simp [h, Except.toOption] at hunits
  | ok units =>
    exact ⟨n, c, units, hn, hc, hlabel, hprofiles, h, hapart,
      (sameFact_iff_namesApart "lab" hostedNamesLab .default n .builtin c units hn hc hprofiles
        h).1.mpr hapart⟩

/-- Two administrators whose names differ in a hyphen. -/
def foldedNamesLab : Description where
  servers := [("router", { types := ["router"], admins := ["eva-m", "eva_m"] })]
  users := [("eva-m", {}), ("eva_m", {})]

/-- The accounts of both have one label, and the network is rejected for it. -/
theorem user_label_of_two_names :
    ∃ n c units u v, (CompiledNetwork.ofDescription "lab" foldedNamesLab .default).result = .ok n ∧
      c ∈ managedContexts n .builtin ∧ c.machine.profiles = [] ∧ machineUnits c = .ok units ∧
      u ∈ units ∧ v ∈ units ∧ u.label = "user_eva_m" ∧ v.label = "user_eva_m" ∧
      u.audit ≠ v.audit ∧
      checkedUnits c = .error (.compile (.duplicateUnit "router" "user_eva_m")) := by
  have hlab : (CompiledNetwork.ofDescription "lab" foldedNamesLab .default).result.map (fun n =>
      decide (∃ c ∈ managedContexts n .builtin, c.machine.profiles = [] ∧
        checkedUnits c = .error (.compile (.duplicateUnit "router" "user_eva_m")) ∧
        ∃ units ∈ (machineUnits c).toOption, ∃ u ∈ units, ∃ v ∈ units,
          u.label = "user_eva_m" ∧ v.label = "user_eva_m" ∧ u.audit ≠ v.audit)) = .ok true := by
    decide +kernel
  obtain ⟨n, hn, hlab⟩ := map_eq_ok.mp hlab
  obtain ⟨c, hc, hprofiles, hcheck, units, hunits, u, hu, v, hv, hulabel, hvlabel, haudit⟩ :=
    of_decide_eq_true hlab
  cases h : machineUnits c with
  | error e => simp [h, Except.toOption] at hunits
  | ok us =>
    simp only [h, Except.toOption, Option.mem_def, Option.some.injEq] at hunits
    obtain rfl := hunits
    exact ⟨n, c, us, u, v, hn, hc, hprofiles, h, hu, hv, hulabel, hvlabel, haudit, hcheck⟩

end NetworkCompiler.Provision
