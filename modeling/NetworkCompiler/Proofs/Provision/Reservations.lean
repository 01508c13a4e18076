import NetworkCompiler.Proofs.Firewall.Tokens
import NetworkCompiler.Proofs.Topology.HardwareAddresses
import NetworkCompiler.Proofs.Text.Entries
import NetworkCompiler.Provision.Leases

/-!
# Reservations of the address service

Assignments become reservations subnet by subnet, one each (`Topology.IsBuilt.leases_perm`), and an
assignment whose hardware address is its own is the only reservation for it
(`Topology.IsBuilt.filter_leases`). In the file of the address
service the hardware addresses and the addresses beside them are read off line by line
(`LeaseConfig.reservationsIn_text`).
-/

namespace NetworkCompiler

open Ipv4 (Address Block)
open Text (IsLine behind unlines after? margin)

/-! ## Reservations of assignments -/

/-- The reservation of an assignment. -/
def Assignment.lease (a : Assignment) (g : Graph) : Lease :=
  ⟨((g.machine? a.machine).map (·.label)).getD "", a.iface, a.mac, a.address, a.role⟩

theorem Assignment.lease_eq {a : Assignment} {g : Graph} {m : Machine}
    (hm : g.machine? a.machine = some m) :
    a.lease g = ⟨m.label, a.iface, a.mac, a.address, a.role⟩ := by
  rw [lease, hm]
  rfl

theorem Topology.leases_eq (t : Topology) (g : Graph) :
    t.leases g = t.subnets.flatMap fun x =>
      (t.assignments.filter fun a => a.role = x.role).map fun a => a.lease g := by
  rw [leases]
  refine List.flatMap_congr fun x _ => List.map_congr_left fun a ha => ?_
  rw [Assignment.lease, of_decide_eq_true (List.mem_filter.mp ha).2]

theorem Topology.mem_leases {t : Topology} {g : Graph} {l : Lease} (hl : l ∈ t.leases g) :
    ∃ a ∈ t.assignments, l = a.lease g := by
  rw [leases_eq] at hl
  obtain ⟨x, -, hl⟩ := List.mem_flatMap.mp hl
  obtain ⟨a, ha, rfl⟩ := List.mem_map.mp hl
  exact ⟨a, List.mem_of_mem_filter ha, rfl⟩

/-- Every assignment becomes one reservation. -/
theorem Topology.IsBuilt.leases_perm {t : Topology} {g : Graph} {s : Settings}
    (h : t.IsBuilt g s) (hs : s.Valid) :
    (t.leases g).Perm (t.assignments.map fun a => a.lease g) := by
  have hroles : ∀ a ∈ t.assignments, a.role ∈ t.subnets.map (·.role) := fun a ha => by
    obtain ⟨x, hx, hrole, -⟩ := h.isHostOf_of_mem hs ha
    exact hrole ▸ List.mem_map_of_mem hx
  have hparts : t.leases g = ((t.subnets.map (·.role)).flatMap fun r =>
      t.assignments.filter fun a => a.role = r).map fun a => a.lease g := by
    rw [leases_eq, List.map_flatMap, List.flatMap_map]
  rw [hparts]
  exact (flatMap_filter_perm h.nodup_roles hroles).map _

/-- A hardware address that only one assignment has stands in one reservation. -/
theorem Topology.IsBuilt.filter_leases {t : Topology} {g : Graph} {s : Settings}
    (h : t.IsBuilt g s) (hs : s.Valid) {a : Assignment} (ha : a ∈ t.assignments)
    (hmac : ∀ b ∈ t.assignments, b.mac = a.mac → b = a) :
    ((t.leases g).filter fun l => l.mac = a.mac) = [a.lease g] := by
  have hnodup : t.assignments.Nodup :=
    List.Nodup.of_map _ (List.nodup_append.mp (h.nodup_addresses hs)).2.1
  have hsingle : (t.assignments.filter fun b => b.mac = a.mac) = [a] := by
    have hsame : (t.assignments.filter fun b => b.mac = a.mac) =
        t.assignments.filter fun b => id b = id a :=
      List.filter_congr fun b hb => decide_eq_decide.mpr
        ⟨hmac b hb, fun hba : b = a => hba ▸ rfl⟩
    rw [hsame]
    exact filter_of_nodup_key (by rwa [List.map_id]) ha
  have hperm := (h.leases_perm hs).filter fun l => l.mac = a.mac
  rw [List.filter_map] at hperm
  exact List.perm_singleton.mp
    (hperm.trans (.of_eq (congrArg (List.map fun b => b.lease g) hsingle)))

namespace Provision

/-! ## Options -/

theorem isLine_of_mem_declaration {head : String} {options : List String} (hhead : IsLine head)
    (hoptions : ∀ o ∈ options, IsLine o) : ∀ l ∈ declaration head options, IsLine l := by
  simp only [declaration, List.mem_append, List.mem_cons, List.mem_map, List.not_mem_nil, or_false]
  rintro l (((rfl | rfl) | ⟨o, ho, rfl⟩) | rfl)
  · decide
  · exact Text.isLine_append hhead (by decide)
  · exact Text.isLine_append (Text.isLine_append (by decide) (hoptions o ho)) (by decide)
  · decide

theorem filterMap_declaration {key head : String} {options : List String}
    (hhead : ∀ rest, after? (margin ++ key) (head ++ rest) = none) :
    (declaration head options).filterMap (after? (margin ++ key)) =
      options.filterMap fun o => after? key (o ++ ";") := by
  have hempty : after? (margin ++ key) "" = none := Text.after?_append_of_eq_none (by decide) key
  have hclosed : after? (margin ++ key) "\x7d" = none :=
    Text.after?_append_of_eq_none (by decide) key
  rw [declaration, List.filterMap_append, List.filterMap_append, List.filterMap_cons,
    List.filterMap_cons, List.filterMap_cons, hempty, hhead, hclosed, List.filterMap_map]
  simp [String.append_assoc, Text.after?_margin_append]

/-! ## The file of the address service -/

theorem isLine_text_append (s : String) (hs : IsLine s) (a : Address) : IsLine (s ++ a.text) :=
  Text.isLine_append hs a.isLine_text

theorem LeaseSubnet.isLine_of_mem_lines (s : LeaseSubnet) : ∀ l ∈ s.lines, IsLine l := by
  refine isLine_of_mem_declaration ?_ ?_
  · exact isLine_text_append _
      (Text.isLine_append (isLine_text_append _ (by decide) _) (by decide)) _
  · simp only [List.mem_append, List.mem_cons, List.not_mem_nil, or_false, List.mem_map,
      Option.mem_toList]
    rintro o ((rfl | rfl | rfl) | ⟨⟨first, last⟩, -, rfl⟩)
    · exact isLine_text_append _ (by decide) _
    · exact isLine_text_append _ (by decide) _
    · exact isLine_text_append _ (by decide) _
    · exact isLine_text_append _
        (Text.isLine_append (isLine_text_append _ (by decide) _) (by decide)) _

/-- The words with which the options of a subnet begin. -/
def subnetWords : List String :=
  ["option routers ", "option domain-name-servers ", "option broadcast-address ", "range "]

theorem LeaseSubnet.filterMap_lines (s : LeaseSubnet) {key : String}
    (hkey : ∀ word ∈ subnetWords, Text.Chars.clashes key.toList word.toList = true) :
    s.lines.filterMap (after? (margin ++ key)) = [] := by
  have hother : ∀ word ∈ subnetWords, ∀ rest, after? key (word ++ rest) = none :=
    fun word hword rest => Text.after?_of_clashes (hkey word hword) rest
  rw [lines, filterMap_declaration (fun rest => ?_)]
  · rw [List.filterMap_eq_nil_iff]
    simp only [List.mem_append, List.mem_cons, List.not_mem_nil, or_false, List.mem_map,
      Option.mem_toList]
    rintro o ((rfl | rfl | rfl) | ⟨⟨first, last⟩, -, rfl⟩) <;> simp only [String.append_assoc]
    · exact hother "option routers " (by decide) _
    · exact hother "option domain-name-servers " (by decide) _
    · exact hother "option broadcast-address " (by decide) _
    · exact hother "range " (by decide) _
  · simp only [String.append_assoc]
    exact Text.after?_margin_eq_none (by decide) key _

/-- The options of a reservation. -/
theorem reservationLines_eq (l : Lease) :
    reservationLines l = declaration ("host " ++ reservationName l)
      ["hardware ethernet " ++ l.mac.text, "fixed-address " ++ l.address.text,
        "option host-name \"" ++ l.label ++ "\""] :=
  rfl

theorem isLine_of_mem_reservationLines {l : Lease} (hlabel : IsLine l.label)
    (hiface : IsLine l.iface) : ∀ line ∈ reservationLines l, IsLine line := by
  rw [reservationLines_eq]
  refine isLine_of_mem_declaration ?_ ?_
  · exact Text.isLine_append (by decide)
      (Text.isLine_append (Text.isLine_append hlabel (by decide)) hiface)
  · simp only [List.forall_mem_cons]
    exact ⟨Text.isLine_append (by decide) (Text.isLine_of_isSolid l.mac.isSolid_text),
      isLine_text_append _ (by decide) _,
      Text.isLine_append (Text.isLine_append (by decide) hlabel) (by decide), nofun⟩

namespace LeaseConfig

/-- A configuration whose names stay on their lines. -/
structure IsPlain (c : LeaseConfig) : Prop where
  title : IsLine c.title
  domain : IsLine c.domain
  names : ∀ l ∈ c.reservations, IsLine l.label ∧ IsLine l.iface

/-- The hardware addresses of a file of the address service with the address beside each, both as
they are written. -/
def reservationsIn (text : String) : List (String × String) :=
  (behind "    hardware ethernet " text).zip (behind "    fixed-address " text)

/-- The lines in front of the subnets. -/
def header (c : LeaseConfig) : List String :=
  [s!"# {c.title}: generated by netconverge", "option domain-name \"" ++ c.domain ++ "\";",
    "default-lease-time 3600;", "max-lease-time 86400;", "authoritative;"]

/-- The lines of a file. -/
def lines (c : LeaseConfig) : List String :=
  c.header ++ c.subnets.flatMap LeaseSubnet.lines ++ c.reservations.flatMap reservationLines

variable {c : LeaseConfig}

theorem IsPlain.isLine_of_mem (hc : c.IsPlain) : ∀ l ∈ c.lines, IsLine l := by
  simp only [lines, header, List.mem_append, List.mem_flatMap, or_imp, forall_and,
    List.forall_mem_cons]
  refine ⟨⟨⟨?_, ?_, by decide, by decide, by decide, nofun⟩, ?_⟩, ?_⟩
  · exact Text.isLine_append (Text.isLine_append (by decide) hc.title) (by decide)
  · exact Text.isLine_append (Text.isLine_append (by decide) hc.domain) (by decide)
  · rintro l ⟨s, -, hl⟩
    exact s.isLine_of_mem_lines l hl
  · rintro l ⟨r, hr, hl⟩
    obtain ⟨hlabel, hiface⟩ := hc.names r hr
    exact isLine_of_mem_reservationLines hlabel hiface l hl

/-- An option that reservations alone have is read off them, one after the other. -/
theorem behind_text (hc : c.IsPlain) {key : String}
    (hkey : ∀ word ∈ subnetWords, Text.Chars.clashes key.toList word.toList = true) :
    behind (margin ++ key) c.text = c.reservations.flatMap fun l =>
      (reservationLines l).filterMap (after? (margin ++ key)) := by
  have hstart : margin ++ key ≠ "" := fun h => by
    simpa [margin] using congrArg String.toList h
  have hheader : c.header.filterMap (after? (margin ++ key)) = [] := by
    have hnone : ∀ l, after? margin l = none → after? (margin ++ key) l = none := fun l hl =>
      Text.after?_append_of_eq_none hl key
    rw [List.filterMap_eq_nil_iff]
    simp only [header, List.forall_mem_cons, String.append_assoc]
    exact ⟨Text.after?_margin_eq_none (by decide) key _,
      Text.after?_margin_eq_none (by decide) key _, hnone _ (by decide), hnone _ (by decide),
      hnone _ (by decide), nofun⟩
  have hsubnets :
      (c.subnets.flatMap LeaseSubnet.lines).filterMap (after? (margin ++ key)) = [] := by
    rw [List.filterMap_flatMap]
    exact List.flatMap_eq_nil_iff.mpr fun s _ => s.filterMap_lines hkey
  have htext : c.text = unlines c.lines := rfl
  rw [htext, Text.behind_unlines hstart hc.isLine_of_mem, lines, List.filterMap_append,
    List.filterMap_append, hheader, hsubnets, List.nil_append, List.nil_append,
    List.filterMap_flatMap]

/-- The file lists the reservations, one after the other. -/
theorem reservationsIn_text (hc : c.IsPlain) :
    reservationsIn c.text =
      c.reservations.map fun l => (l.mac.text ++ ";", l.address.text ++ ";") := by
  have hread : ∀ key (value : Lease → String),
      (∀ word ∈ subnetWords, Text.Chars.clashes key.toList word.toList = true) →
      (∀ l, (reservationLines l).filterMap (after? (margin ++ key)) = [value l]) →
      behind (margin ++ key) c.text = c.reservations.map value := by
    intro key value hkey hvalue
    rw [behind_text hc hkey, List.map_eq_flatMap]
    exact List.flatMap_congr fun l _ => hvalue l
  have hhost : ∀ key l rest,
      after? (margin ++ key) ("host " ++ reservationName l ++ rest) = none := fun key l rest => by
    rw [String.append_assoc]
    exact Text.after?_margin_eq_none (by decide) key _
  have hmac := hread "hardware ethernet " (fun l => l.mac.text ++ ";") (by decide) fun l => by
    rw [reservationLines_eq, filterMap_declaration (hhost _ l)]
    simp only [List.filterMap_cons, List.filterMap_nil, String.append_assoc]
    rw [Text.after?_append_right, Text.after?_of_clashes (by decide),
      Text.after?_of_clashes (by decide)]
  have haddress := hread "fixed-address " (fun l => l.address.text ++ ";") (by decide) fun l => by
    rw [reservationLines_eq, filterMap_declaration (hhost _ l)]
    simp only [List.filterMap_cons, List.filterMap_nil, String.append_assoc]
    rw [Text.after?_append_right, Text.after?_of_clashes (by decide),
      Text.after?_of_clashes (by decide)]
  have hstart : "    hardware ethernet " = margin ++ "hardware ethernet " ∧
      "    fixed-address " = margin ++ "fixed-address " := by decide
  rw [reservationsIn, hstart.1, hstart.2, hmac, haddress, List.zip_map']

end LeaseConfig

end Provision

end NetworkCompiler
