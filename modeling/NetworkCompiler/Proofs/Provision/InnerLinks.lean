import NetworkCompiler.Proofs.Firewall.Tokens
import NetworkCompiler.Proofs.Lists
import NetworkCompiler.Proofs.Text.Entries
import NetworkCompiler.Proofs.Topology.HardwareAddresses
import NetworkCompiler.Provision.Links

/-!
# Inner links of machines

A file that describes a link is written line by line (`LinkFile.body_eq`). If its names, keys and
values stay on their lines, whoever reads the lines of a key finds exactly the values that the file
has for it (`LinkFile.behind_body`).

The link service of a machine that is no router looks up what each inner interface was given. If
the interfaces of the machine have distinct names there is exactly one assignment to find
(`Topology.Gives`), and both the file of the interface (`fileAgrees`) and the unit that looks at
the running system (`addressUnit_mem_iff`) say what it says.
-/

namespace NetworkCompiler.Provision

open Text (IsLine behind unlines after?)

namespace LinkSection

/-- The lines of a section. -/
def lines (s : LinkSection) : List String :=
  ("[" ++ s.name ++ "]") :: s.entries.map fun e => e.1 ++ "=" ++ e.2

theorem text_eq (s : LinkSection) : s.text = unlines s.lines := by
  rw [text, lines, unlines, unlines, List.map_cons, String.join_cons]
  simp [String.append_assoc]

/-- A key that is told from its value and from the name of a section. -/
def IsKey (key : String) : Prop :=
  IsLine key ∧ '=' ∉ key.toList ∧ '[' ∉ key.toList

instance (key : String) : Decidable (IsKey key) :=
  inferInstanceAs (Decidable (_ ∧ _ ∧ _))

/-- A section that stays on its lines. -/
structure IsPlain (s : LinkSection) : Prop where
  name : IsLine s.name
  entries : ∀ e ∈ s.entries, IsKey e.1 ∧ IsLine e.2

theorem IsPlain.isLine_of_mem {s : LinkSection} (h : s.IsPlain) : ∀ l ∈ s.lines, IsLine l := by
  refine List.forall_mem_cons.mpr ⟨?_, List.forall_mem_map.mpr fun e he => ?_⟩
  · exact Text.isLine_append (Text.isLine_append (by decide) h.name) (by decide)
  · obtain ⟨⟨hkey, -⟩, hvalue⟩ := h.entries e he
    exact Text.isLine_append (Text.isLine_append hkey (by decide)) hvalue

/-- The values of a key. -/
def values (s : LinkSection) (key : String) : List String :=
  s.entries.filterMap fun e => if e.1 = key then some e.2 else none

theorem after?_entry {key k : String} (hkey : IsKey key) (hk : IsKey k) (v : String) :
    after? (key ++ "=") (k ++ "=" ++ v) = if k = key then some v else none := by
  have hrest := Text.after?_append_right "" v
  rw [String.empty_append] at hrest
  rw [← String.append_empty (s := key ++ "="), Text.after?_piece rfl hkey.2.1 hk.2.1, hrest]

theorem after?_header {key : String} (hkey : IsKey key) (rest : String) :
    after? (key ++ "=") ("[" ++ rest) = none := by
  rw [Option.eq_none_iff_forall_ne_some]
  intro tail htail
  rw [Text.after?_eq_some, ← String.toList_inj] at htail
  simp only [String.toList_append, List.append_assoc] at htail
  have hbracket := hkey.2.2
  have hhead := congrArg List.head? htail
  cases hchars : key.toList with
  | nil =>
    rw [hchars] at hhead
    exact absurd (Option.some.inj hhead : '[' = '=') (by decide)
  | cons c cs =>
    rw [hchars] at hhead hbracket
    obtain rfl : '[' = c := Option.some.inj hhead
    exact hbracket List.mem_cons_self

theorem IsPlain.filterMap_lines {s : LinkSection} (h : s.IsPlain) {key : String}
    (hkey : IsKey key) : s.lines.filterMap (after? (key ++ "=")) = s.values key := by
  rw [lines, List.filterMap_cons, String.append_assoc, after?_header hkey, List.filterMap_map]
  exact List.filterMap_congr fun e he => after?_entry hkey (h.entries e he).1 e.2

end LinkSection

namespace LinkFile

open LinkSection (IsKey)

/-- The lines of a file, with an empty one between the sections. -/
def lines (f : LinkFile) : List String :=
  [""].intercalate (f.sections.map LinkSection.lines)

theorem body_eq (f : LinkFile) : f.body = unlines f.lines := by
  rw [body, lines, Text.joinWith]
  induction f.sections with
  | nil => rfl
  | cons s sections ih =>
    cases sections with
    | nil => simp [List.intercalate, LinkSection.text_eq]
    | cons s' sections =>
      simp only [List.map_cons] at ih ⊢
      rw [String.intercalate_cons_cons, List.intercalate_cons_cons, ih, LinkSection.text_eq]
      simp [unlines, String.join_append, String.append_assoc]

/-- The values of a key, section by section. -/
def values (f : LinkFile) (key : String) : List String :=
  f.sections.flatMap fun s => s.values key

/-- The lines of a key hold the values that a file has for it. -/
theorem behind_body {f : LinkFile} (hf : ∀ s ∈ f.sections, s.IsPlain) {key : String}
    (hkey : IsKey key) : behind (key ++ "=") f.body = f.values key := by
  have hstart : key ++ "=" ≠ "" := fun h => by
    simpa using congrArg String.toList h
  have hlines : ∀ l ∈ f.lines, IsLine l := by
    intro l hl
    rcases mem_intercalate hl with hl | ⟨ls, hls, hl⟩
    · rw [List.mem_singleton.mp hl]
      decide
    · obtain ⟨s, hs, rfl⟩ := List.mem_map.mp hls
      exact (hf s hs).isLine_of_mem l hl
  have hempty : after? (key ++ "=") "" = none := by
    rw [Option.eq_none_iff_forall_ne_some]
    intro rest hrest
    simpa using congrArg String.toList (Text.after?_eq_some.mp hrest)
  rw [body_eq, Text.behind_unlines hstart hlines, lines, filterMap_intercalate_singleton hempty,
    values, List.flatMap_map]
  exact List.flatMap_congr fun s hs => (hf s hs).filterMap_lines hkey

end LinkFile

end NetworkCompiler.Provision

namespace NetworkCompiler

open Ipv4 (Address Block)
open Text (IsLine)

/-! ## Looking an assignment up -/

/-- An assignment is the only one of an interface. Its address is a host of the subnet that the
machine is placed in, its hardware address the one that the interface declares, if it does. -/
structure Topology.Gives (t : Topology) (id : MachineId) (i : Interface) (x : Subnet)
    (a : Assignment) : Prop where
  mem : a ∈ t.assignments
  only : ∀ b ∈ t.assignments, b.machine = id ∧ b.iface = i.name ↔ b = a
  subnetOf : t.subnetOf? id = some x
  isHost : isHostOf x.net a.address = true
  declared : ∀ mac, i.mac = some mac → mac = a.mac

section Gives

variable {t : Topology} {id : MachineId} {i : Interface} {x : Subnet} {a : Assignment}

theorem Topology.IsBuilt.exists_gives {name : String} {d : Description} {g : Graph} {s : Settings}
    (hg : Graph.ofDescription name d s = .ok g) (h : t.IsBuilt g s) (hs : s.Valid) {m : Machine}
    (hm : g.machine? id = some m) (hrouter : m.isRouter = false)
    (hnames : (m.lan.map (·.name)).Nodup) (hi : i ∈ m.lan) : ∃ x a, t.Gives id i x a := by
  have hassigned := h.assignmentsOf_of_isDeclared hm
    (Graph.isDeclared hg (List.mem_of_getElem? hm)) hrouter
  obtain ⟨a, ha, haname, -⟩ := exists_of_mem_left hassigned hi
  have hifaces : ((t.assignmentsOf id).map (·.iface)).Nodup := by
    rwa [← map_eq_map_of_forall₂ hassigned fun _ _ hia => hia.1.symm]
  obtain ⟨hmem, hid⟩ := List.mem_filter.mp ha
  obtain rfl : a.machine = id := of_decide_eq_true hid
  obtain ⟨x, hx, -, hplace, hhost⟩ := h.isHostOf_of_mem hs hmem
  refine ⟨x, a, hmem, fun b hb => ⟨?_, ?_⟩, h.subnetOf?_eq_some hx hplace, hhost, ?_⟩
  · rintro ⟨hbid, hbname⟩
    have hb : b ∈ t.assignmentsOf a.machine := List.mem_filter.mpr ⟨hb, decide_eq_true hbid⟩
    exact List.inj_on_of_nodup_map hifaces hb ha (hbname.trans haname.symm)
  · rintro rfl
    exact ⟨rfl, haname⟩
  · intro mac hmac
    obtain ⟨m', i', hm', hi', hname', hmac'⟩ := h.exists_interface hmem
    obtain rfl : m = m' := Option.some.inj (hm.symm.trans hm')
    obtain rfl : i' = i := List.inj_on_of_nodup_map hnames hi' hi (hname'.trans haname)
    rw [hmac] at hmac'
    split_ifs at hmac' with hgen
    exact Option.some.inj hmac'

theorem Topology.Gives.assignment?_eq (h : t.Gives id i x a) :
    t.assignment? id i.name = some a := by
  obtain ⟨hid, hname⟩ := (h.only a h.mem).mpr rfl
  rw [Topology.assignment?]
  cases hfind : t.assignments.find? fun b => b.machine = id && b.iface = i.name with
  | none => simpa [hid, hname] using List.find?_eq_none.mp hfind a h.mem
  | some b =>
    have hb := List.find?_some hfind
    simp only [Bool.and_eq_true, decide_eq_true_eq] at hb
    rw [(h.only b (List.mem_of_find?_eq_some hfind)).mp hb]

theorem Topology.Gives.mac_eq (h : t.Gives id i x a) : i.mac.or (some a.mac) = some a.mac := by
  cases hmac : i.mac with
  | none => rfl
  | some mac => rw [h.declared mac hmac, Option.some_or]

end Gives

namespace Provision

open LinkFile

variable {c : Context} {i : Interface} {x : Subnet} {a : Assignment}

/-! ## Files -/

/-- A machine that is no router has one file for each inner interface. -/
theorem filter_linkFiles (hrouter : c.machine.isRouter = false)
    (hnames : (c.machine.lan.map (·.name)).Nodup) (hi : i ∈ c.machine.lan) :
    ((linkFiles c).filter fun f => f.link = i.name) = [lanFile c i] := by
  rw [linkFiles, if_neg (by simp [hrouter]), List.filter_map]
  have hkey := filter_of_nodup_key hnames hi
  exact congrArg (List.map (lanFile c)) hkey

theorem sections_lanFile (h : c.topology.Gives c.id i x a)
    (hkind : i.kind = .static ∨ i.kind = .dhcp) :
    (lanFile c i).sections = [⟨"Match", [("MACAddress", a.mac.text)]⟩] ++ (linkSection? i).toList ++
      [⟨"Network", lanEntries c i⟩] := by
  have hvirtual : i.kind.isVirtual = false := by
    rcases hkind with hkind | hkind <;> rw [hkind] <;> rfl
  rw [lanFile, LinkFile.of, matchSection, h.assignment?_eq]
  simp only [Option.map_some, h.mac_eq, hvirtual]

/-- What is unusual about a link says nothing about addresses. -/
theorem flatMap_values_linkSection? {key : String} (honline : key ≠ "RequiredForOnline")
    (harp : key ≠ "ARP") : ((linkSection? i).toList.flatMap fun s => s.values key) = [] := by
  rw [linkSection?]
  split
  · rfl
  · cases i.requiredForOnline <;> cases i.arp <;>
      simp [LinkSection.values, honline.symm, harp.symm]

theorem values_lanFile (h : c.topology.Gives c.id i x a)
    (hkind : i.kind = .static ∨ i.kind = .dhcp) {key : String} (honline : key ≠ "RequiredForOnline")
    (harp : key ≠ "ARP") :
    (lanFile c i).values key =
      (if "MACAddress" = key then [a.mac.text] else []) ++
        (LinkSection.mk "Network" (lanEntries c i)).values key := by
  rw [LinkFile.values, sections_lanFile h hkind, List.flatMap_append, List.flatMap_append,
    flatMap_values_linkSection? honline harp, List.append_nil, List.flatMap_singleton,
    List.flatMap_singleton]
  congr 1
  rw [LinkSection.values, List.filterMap_cons]
  split <;> simp_all

/-- A static interface gets its address, the gateway of its subnet and the domain, any other one
asks for an address. -/
theorem lanEntries_eq (h : c.topology.Gives c.id i x a) :
    lanEntries c i =
      if i.kind = .static then
        [("Address", cidr a.address x.net), ("Gateway", x.gateway.text), ("DNS", x.gateway.text),
          ("Domains", c.graph.domain)]
      else [("DHCP", "ipv4")] := by
  split
  · next hkind =>
    rw [lanEntries, hkind, h.assignment?_eq, h.subnetOf]
    rfl
  · next hkind =>
    unfold lanEntries
    split
    · next hstatic _ _ => exact absurd hstatic hkind
    · rfl

/-- Unless the domain breaks a line, everything in the file of an inner interface stays on its
line. -/
theorem isPlain_of_mem_lanFile (h : c.topology.Gives c.id i x a)
    (hkind : i.kind = .static ∨ i.kind = .dhcp) (hdomain : IsLine c.graph.domain) :
    ∀ s ∈ (lanFile c i).sections, s.IsPlain := by
  have hname : ∀ name ∈ ["Match", "Link", "Network"], IsLine name := by decide
  have hkey : ∀ key ∈ ["MACAddress", "Address", "Gateway", "DNS", "Domains"],
      LinkSection.IsKey key := by decide
  rw [sections_lanFile h hkind]
  simp only [List.mem_append, List.mem_singleton, Option.mem_toList]
  rintro s ((rfl | hs) | rfl)
  · refine ⟨hname _ (by simp), List.forall_mem_singleton.mpr ⟨hkey _ (by simp), ?_⟩⟩
    exact Text.isLine_of_isSolid a.mac.isSolid_text
  · rw [linkSection?] at hs
    split at hs
    · cases hs
    · cases hs
      refine ⟨hname _ (by simp), ?_⟩
      cases i.requiredForOnline <;> cases i.arp <;> decide
  · refine ⟨hname _ (by simp), ?_⟩
    rw [lanEntries_eq h]
    split
    · have hcidr : IsLine (cidr a.address x.net) :=
        Text.isLine_append (Text.isLine_append (Address.isLine_text _) (by decide))
          (Text.isLine_of_isSolid (Text.isWord_toString _).2)
      simp only [List.forall_mem_cons]
      exact ⟨⟨hkey _ (by simp), hcidr⟩, ⟨hkey _ (by simp), Address.isLine_text _⟩,
        ⟨hkey _ (by simp), Address.isLine_text _⟩, ⟨hkey _ (by simp), hdomain⟩, nofun⟩
    · decide

/-- What the file of an inner interface says to the link service : the interface is found by its
hardware address; it carries its address and sends through the gateway of its subnet, or it asks
for its address. -/
structure FileAgrees (c : Context) (i : Interface) (x : Subnet) (a : Assignment) : Prop where
  mac : Text.behind "MACAddress=" (lanFile c i).body = [a.mac.text]
  name : Text.behind "Name=" (lanFile c i).body = []
  address : Text.behind "Address=" (lanFile c i).body =
    if i.kind = .static then [cidr a.address x.net] else []
  gateway : Text.behind "Gateway=" (lanFile c i).body =
    if i.kind = .static then [x.gateway.text] else []
  dhcp : Text.behind "DHCP=" (lanFile c i).body = if i.kind = .static then [] else ["ipv4"]

theorem fileAgrees (h : c.topology.Gives c.id i x a)
    (hkind : i.kind = .static ∨ i.kind = .dhcp) (hdomain : IsLine c.graph.domain) :
    FileAgrees c i x a := by
  have hread : ∀ key,
      LinkSection.IsKey key ∧ key ≠ "RequiredForOnline" ∧ key ≠ "ARP" →
      Text.behind (key ++ "=") (lanFile c i).body =
        (if "MACAddress" = key then [a.mac.text] else []) ++
          (LinkSection.mk "Network" (lanEntries c i)).values key :=
    fun key ⟨hkey, honline, harp⟩ =>
      (LinkFile.behind_body (isPlain_of_mem_lanFile h hkind hdomain) hkey).trans
        (values_lanFile h hkind honline harp)
  rw [lanEntries_eq h] at hread
  by_cases hstatic : i.kind = .static <;> simp only [hstatic, if_true, if_false] at hread
  all_goals exact
    { mac := (hread "MACAddress" (by decide)).trans (by simp [LinkSection.values])
      name := (hread "Name" (by decide)).trans (by simp [LinkSection.values])
      address := (hread "Address" (by decide)).trans (by simp [LinkSection.values, hstatic])
      gateway := (hread "Gateway" (by decide)).trans (by simp [LinkSection.values, hstatic])
      dhcp := (hread "DHCP" (by decide)).trans (by simp [LinkSection.values, hstatic]) }

/-! ## Units -/

theorem addressUnit_inj {p p' name name' address address' : String} :
    addressUnit p name address = addressUnit p' name' address' ↔
      p = p' ∧ name = name' ∧ address = address' := by
  refine ⟨fun h => ?_, by rintro ⟨rfl, rfl, rfl⟩; rfl⟩
  have hprecondition := congrArg ConfigUnit.precondition h
  obtain rfl : address = address' := congrArg ConfigUnit.expected h
  have hmessage : name ++ " does not carry " ++ address = name' ++ " does not carry " ++ address :=
    congrArg ConfigUnit.message h
  rw [String.append_left_inj, String.append_left_inj] at hmessage
  exact ⟨hprecondition, hmessage, rfl⟩

theorem mem_liveAddresses (h : c.topology.Gives c.id i x a) (hrouter : c.machine.isRouter = false)
    (hnames : (c.machine.lan.map (·.name)).Nodup) (hi : i ∈ c.machine.lan) {address : String} :
    (i.name, address) ∈ liveAddresses c ↔
      i.kind = .static ∧ address = cidr a.address x.net := by
  rw [liveAddresses, if_neg (by simp [hrouter]), h.subnetOf]
  simp only [List.mem_filterMap]
  constructor
  · rintro ⟨i', hi', hlive⟩
    rw [lanAddress?] at hlive
    split_ifs at hlive with hkind
    obtain ⟨b, hb, hlive⟩ := Option.map_eq_some_iff.mp hlive
    obtain ⟨hname, rfl⟩ := Prod.ext_iff.mp hlive
    obtain rfl : i' = i := List.inj_on_of_nodup_map hnames hi' hi hname
    obtain rfl : a = b := Option.some.inj (h.assignment?_eq.symm.trans hb)
    exact ⟨hkind, rfl⟩
  · rintro ⟨hkind, rfl⟩
    refine ⟨i, hi, ?_⟩
    rw [lanAddress?, if_pos hkind, h.assignment?_eq]
    rfl

/-- The unit of an inner interface looks for the address of the interface, and there is one only
for a fixed address. -/
theorem addressUnit_mem_iff (h : c.topology.Gives c.id i x a)
    (hrouter : c.machine.isRouter = false) (hnames : (c.machine.lan.map (·.name)).Nodup)
    (hi : i ∈ c.machine.lan) {precondition address : String} :
    addressUnit precondition i.name address ∈ linkLive c ↔
      i.kind = .static ∧ precondition = (ConfigUnit.serviceRunning linkService).label ∧
        address = cidr a.address x.net := by
  have hother : ∀ u : ConfigUnit, (∃ rest, u.label = "svc_" ++ rest) →
      addressUnit precondition i.name address ≠ u := by
    rintro u ⟨rest, hlabel⟩ rfl
    have hlabel : "addr_" ++ ConfigUnit.key i.name = "svc_" ++ rest := hlabel
    have hnone : Text.after? "svc_" ("addr_" ++ ConfigUnit.key i.name) = none :=
      Text.after?_of_clashes (by decide) _
    rw [hlabel, Text.after?_append_right] at hnone
    cases hnone
  rw [linkLive, List.mem_append, List.mem_map]
  constructor
  · rintro (hmem | ⟨⟨name, found⟩, hfound, heq⟩)
    · rcases List.mem_cons.mp hmem with hmem | hmem
      · exact absurd hmem (hother _ ⟨_, String.append_assoc⟩)
      · exact absurd (List.mem_singleton.mp hmem) (hother _ ⟨_, String.append_assoc⟩)
    · obtain ⟨rfl, rfl, rfl⟩ := addressUnit_inj.mp heq
      obtain ⟨hkind, haddress⟩ := (mem_liveAddresses h hrouter hnames hi).mp hfound
      exact ⟨hkind, rfl, haddress⟩
  · rintro ⟨hkind, rfl, rfl⟩
    exact .inr ⟨_, (mem_liveAddresses h hrouter hnames hi).mpr ⟨hkind, rfl⟩, rfl⟩

end Provision

end NetworkCompiler
