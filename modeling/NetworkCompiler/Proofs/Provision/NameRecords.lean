import NetworkCompiler.Proofs.Firewall.Tokens
import NetworkCompiler.Proofs.Lists
import NetworkCompiler.Proofs.Text.Entries
import NetworkCompiler.Provision.Identity
import NetworkCompiler.Provision.Names

/-!
# Names and their addresses

A machine's own table has one line for each of its addresses, behind those of the loopback
(`firstWords_hostsFile`), exactly if its full name does not break a line. The file of the name
service holds records of names : the addresses that it has for a name are read off its lines
(`NameConfig.behind_text`) if no name has blanks.
-/

namespace NetworkCompiler.Provision

open Ipv4 (Address Block)
open Text (IsLine behind unlines after? margin)
open Text.Chars (IsSolid)

/-! ## The table of a machine -/

/-- The lines of the table, one for an address. -/
def hostsLines (c : Context) : List String :=
  "127.0.0.1\tlocalhost" ::
    ("127.0.1.1" :: (c.topology.addressesOf c.id).map (·.text)).map fun a =>
      a ++ "\t" ++ (c.machine.fqdn ++ "\t" ++ c.label)

theorem hostsFile_eq (c : Context) : hostsFile c = unlines (hostsLines c) := by
  have hline : ∀ a : String,
      a ++ "\t" ++ (c.machine.fqdn ++ "\t" ++ c.label) ++ "\n" =
        a ++ "\t" ++ (c.machine.fqdn ++ "\t" ++ c.label ++ "\n") := fun a => by
    rw [String.append_assoc]
  have hloopback : ∀ names : String, "127.0.0.1\tlocalhost\n127.0.1.1\t" ++ names =
      "127.0.0.1\tlocalhost" ++ "\n" ++ ("127.0.1.1" ++ "\t" ++ names) := fun names => by
    rw [← String.toList_inj]
    simp only [String.toList_append]
    rfl
  rw [hostsLines, unlines, List.map_cons, String.join_cons, List.map_map, List.map_cons,
    String.join_cons, Function.comp_apply, hline, ← String.append_assoc, ← hloopback, List.map_map]
  refine congrArg (_ ++ String.join ·) (List.map_congr_left fun a _ => ?_)
  rw [Function.comp_apply, Function.comp_apply, hline]

/-- A line of the table begins with its address, and a line break in the full name makes two lines
of it. -/
theorem firstWords_hostsLine {address fqdn label : String} (haddress : Text.IsWord address)
    (hlabel : Text.IsWord label) :
    (IsLine fqdn → Text.firstWords (address ++ "\t" ++ (fqdn ++ "\t" ++ label)) = [address]) ∧
      (¬IsLine fqdn →
        2 ≤ (Text.firstWords (address ++ "\t" ++ (fqdn ++ "\t" ++ label))).length) := by
  constructor
  · intro hfqdn
    have hline : IsLine (address ++ "\t" ++ (fqdn ++ "\t" ++ label)) :=
      Text.isLine_append (Text.isLine_append (Text.isLine_of_isSolid haddress.2) (by decide))
        (Text.isLine_append (Text.isLine_append hfqdn (by decide))
          (Text.isLine_of_isSolid hlabel.2))
    have hchars : address ++ "\t" ++ (fqdn ++ "\t" ++ label) =
        String.ofList (address.toList ++ '\t' :: (fqdn ++ "\t" ++ label).toList) := by
      rw [← String.toList_inj]
      simp
    rw [hchars] at hline ⊢
    exact Text.firstWords_of_isLine haddress (by decide) hline
  · intro hfqdn
    obtain ⟨front, back, hsplit⟩ := List.append_of_mem (not_not.mp hfqdn)
    have hchars : address ++ "\t" ++ (fqdn ++ "\t" ++ label) =
        address ++ "\t" ++ String.ofList front ++ "\n" ++ (String.ofList back ++ "\t" ++ label) := by
      rw [← String.toList_inj]
      simp [hsplit]
    obtain ⟨c, cs, haddress'⟩ := List.exists_cons_of_ne_nil haddress.1
    obtain ⟨e, es, hlabel'⟩ := List.exists_cons_of_ne_nil hlabel.1
    have hfront : Text.firstWords (address ++ "\t" ++ String.ofList front) ≠ [] :=
      Text.firstWords_ne_nil (c := c) (by simp [haddress'])
        (haddress.2 c (haddress' ▸ List.mem_cons_self))
    have hback : Text.firstWords (String.ofList back ++ "\t" ++ label) ≠ [] :=
      Text.firstWords_ne_nil (c := e) (by simp [hlabel'])
        (hlabel.2 e (hlabel' ▸ List.mem_cons_self))
    rw [hchars, Text.firstWords_append, List.length_append]
    have := List.length_pos_iff.mpr hfront
    have := List.length_pos_iff.mpr hback
    omega

/-- The lines of the table begin with the addresses of the machine, behind those of the loopback,
exactly if its full name is on one line. -/
theorem firstWords_hostsFile (c : Context) (hlabel : Text.IsWord c.label) :
    Text.firstWords (hostsFile c) =
        "127.0.0.1" :: "127.0.1.1" :: (c.topology.addressesOf c.id).map (·.text) ↔
      IsLine c.machine.fqdn := by
  have hwords : ∀ a ∈ "127.0.1.1" :: (c.topology.addressesOf c.id).map (·.text),
      Text.IsWord a := by
    refine List.forall_mem_cons.mpr ⟨by decide, List.forall_mem_map.mpr fun a _ => ?_⟩
    exact a.isWord_text
  have hlocalhost : Text.firstWords "127.0.0.1\tlocalhost" = ["127.0.0.1"] := by decide
  rw [hostsFile_eq, Text.firstWords_unlines, hostsLines, List.flatMap_cons, hlocalhost,
    List.flatMap_map, List.singleton_append, List.cons_inj_right]
  have hne : "127.0.1.1" :: (c.topology.addressesOf c.id).map (·.text) ≠ [] :=
    List.cons_ne_nil _ _
  generalize "127.0.1.1" :: (c.topology.addressesOf c.id).map (·.text) = addresses at hwords hne ⊢
  constructor
  · intro heq
    by_contra hfqdn
    have hlength := mul_length_le_length_flatMap fun a ha =>
      (firstWords_hostsLine (hwords a ha) hlabel).2 hfqdn
    rw [heq] at hlength
    have := List.length_pos_iff.mpr hne
    omega
  · intro hfqdn
    rw [List.flatMap_congr fun a ha => (firstWords_hostsLine (hwords a ha) hlabel).1 hfqdn,
      List.flatMap_singleton']

/-! ## The records of the name service -/

/-- The address that a record has for a name. -/
def NameRecord.address? (fqdn : String) : NameRecord → Option Address
  | address f a => if f = fqdn then some a else none
  | cname _ _ => none

/-- A record whose names have no blanks. -/
def NameRecord.IsPlain : NameRecord → Prop
  | address f _ => IsSolid f.toList
  | cname n f => IsSolid n.toList ∧ IsSolid f.toList

/-- What a record of an address begins with, up to the address. -/
def recordStart (fqdn : String) : String :=
  "local-data: \"" ++ (fqdn ++ ". IN A ")

theorem after?_recordStart_of_clashes {start : String}
    (h : Text.Chars.clashes "local-data: \"".toList start.toList = true) (fqdn rest : String) :
    after? (recordStart fqdn) (start ++ rest) = none :=
  Text.after?_append_of_eq_none (Text.after?_of_clashes h rest) _

/-- A line about a name is read for the address of a name. -/
theorem after?_recordStart {fqdn name : String} (hfqdn : IsSolid fqdn.toList)
    (hname : IsSolid name.toList) (rest : String) :
    after? (recordStart fqdn) ("local-data: \"" ++ (name ++ ". IN " ++ rest)) =
      if name = fqdn then after? "A " rest else none := by
  have hsplit : ∀ f u : String, f ++ ". IN " ++ u = (f ++ ".") ++ " " ++ ("IN " ++ u) := by
    intro f u
    rw [← String.toList_inj]
    simp only [String.toList_append, List.append_assoc]
    rfl
  have hspace : ∀ f : String, IsSolid f.toList → ' ' ∉ (f ++ ".").toList := by
    intro f hf hmem
    rw [String.toList_append, List.mem_append] at hmem
    rcases hmem with hmem | hmem
    · exact absurd (hf _ hmem) (by decide)
    · exact absurd hmem (by decide)
  have hstart : fqdn ++ ". IN A " = fqdn ++ ". IN " ++ "A " := by
    rw [← String.toList_inj]
    simp only [String.toList_append, List.append_assoc]
    rfl
  rw [recordStart, hstart, hsplit, hsplit, Text.after?_append_append,
    Text.after?_piece rfl (hspace fqdn hfqdn) (hspace name hname), Text.after?_append_append]
  simp only [String.append_left_inj]

/-- The address of a record is read off its lines. -/
theorem NameRecord.IsPlain.filterMap_entries {r : NameRecord} (hr : r.IsPlain) {fqdn : String}
    (hfqdn : IsSolid fqdn.toList) :
    r.entries.filterMap (after? (recordStart fqdn)) =
      ((r.address? fqdn).map fun a => a.text ++ "\"").toList := by
  have hquoted : ∀ value : String, quotedEntry "local-data" value =
      "local-data: \"" ++ (value ++ "\"") := fun value => by
    rw [← String.append_assoc]
    rfl
  cases r with
  | address f a =>
    have hdata : quotedEntry "local-data" s!"{f}. IN A {a}" =
        "local-data: \"" ++ (f ++ ". IN " ++ ("A " ++ (a.text ++ "\""))) := by
      rw [hquoted, ← String.toList_inj]
      simp only [String.toList_append, List.append_assoc]
      rfl
    have hptr : after? (recordStart fqdn) (quotedEntry "local-data-ptr" s!"{a} {f}") = none := by
      simp only [quotedEntry, String.append_assoc]
      exact after?_recordStart_of_clashes (by decide) fqdn _
    rw [entries, hdata, List.filterMap_cons, List.filterMap_cons, hptr, List.filterMap_nil,
      after?_recordStart hfqdn hr, Text.after?_append_right, address?]
    split_ifs <;> rfl
  | cname n f =>
    have hdata : quotedEntry "local-data" s!"{n}. IN CNAME {f}." =
        "local-data: \"" ++ (n ++ ". IN " ++ ("CNAME " ++ (f ++ "." ++ "\""))) := by
      rw [hquoted, ← String.toList_inj]
      simp only [String.toList_append, List.append_assoc]
      rfl
    rw [entries, hdata, List.filterMap_cons, List.filterMap_nil, after?_recordStart hfqdn hr.1,
      Text.after?_of_clashes (by decide), ite_self]
    rfl

/-! ## The file of the name service -/

theorem filterMap_clause {name key : String}
    (hname : Text.Chars.clashes margin.toList name.toList = true) (entries : List String) :
    (clause name entries).filterMap (after? (margin ++ key)) = entries.filterMap (after? key) := by
  rw [clause, List.filterMap_cons, Text.after?_margin_eq_none hname, List.filterMap_map]
  exact List.filterMap_congr fun e _ => Text.after?_margin_append key e

theorem isLine_of_mem_clause {name : String} {entries : List String} (hname : IsLine name)
    (h : ∀ e ∈ entries, IsLine e) : ∀ l ∈ clause name entries, IsLine l :=
  List.forall_mem_cons.mpr ⟨Text.isLine_append hname (by decide),
    List.forall_mem_map.mpr fun e he => Text.isLine_append (by decide) (h e he)⟩

theorem NameRecord.IsPlain.isLine_of_mem_entries {r : NameRecord} (hr : r.IsPlain) :
    ∀ e ∈ r.entries, IsLine e := by
  have hquoted : ∀ key value, IsLine key → IsLine value → IsLine (quotedEntry key value) :=
    fun key value hkey hvalue => Text.isLine_append
      (Text.isLine_append (Text.isLine_append hkey (by decide)) hvalue) (by decide)
  cases r with
  | address f a =>
    have hf : IsLine f := Text.isLine_of_isSolid hr
    have ha : IsLine a.text := a.isLine_text
    simp only [entries, List.forall_mem_cons]
    exact ⟨hquoted _ _ (by decide) (Text.isLine_append (Text.isLine_append hf (by decide)) ha),
      hquoted _ _ (by decide) (Text.isLine_append (Text.isLine_append ha (by decide)) hf), nofun⟩
  | cname n f =>
    have hn : IsLine n := Text.isLine_of_isSolid hr.1
    have hf : IsLine f := Text.isLine_of_isSolid hr.2
    refine List.forall_mem_singleton.mpr (hquoted _ _ (by decide) ?_)
    exact Text.isLine_append (Text.isLine_append (Text.isLine_append hn (by decide)) hf) (by decide)

namespace NameConfig

/-- The entries in front of the records. -/
def front (c : NameConfig) : List String :=
  ["interface: 127.0.0.1"] ++ c.gateways.map (fun a => s!"interface: {a}") ++
    ["access-control: 127.0.0.0/8 allow"] ++
    c.clients.map (fun b => s!"access-control: {b} allow") ++
    [quotedEntry "private-domain" c.domain, quotedEntry "local-zone" (c.domain ++ ".") ++ " static"]

/-- The entries about the resolvers that are asked for everything else. -/
def resolvers (c : NameConfig) : List String :=
  "name: \".\"" :: c.forwarders.map fun a => s!"forward-addr: {a}"

theorem text_eq (c : NameConfig) :
    c.text = unlines (clause "server" (c.front ++ c.records.flatMap NameRecord.entries ++
      c.blocklist.toList.map (quotedEntry "include")) ++ [""] ++
        clause "forward-zone" c.resolvers) :=
  rfl

/-- A configuration whose names have no blanks, and whose other texts stay on their lines. -/
structure IsPlain (c : NameConfig) : Prop where
  domain : IsLine c.domain
  records : ∀ r ∈ c.records, r.IsPlain
  blocklist : ∀ p ∈ c.blocklist, IsLine p

variable {c : NameConfig}

theorem isLine_of_mem_front (hdomain : IsLine c.domain) : ∀ e ∈ c.front, IsLine e := by
  simp only [front, List.mem_append, or_imp, forall_and, List.forall_mem_singleton,
    List.forall_mem_map, List.forall_mem_cons, quotedEntry]
  refine ⟨⟨⟨⟨by decide, fun a _ => ?_⟩, by decide⟩, fun b _ => ?_⟩, ?_, ?_⟩
  · exact Text.isLine_append (by decide) a.isLine_text
  · exact Text.isLine_append
      (Text.isLine_append (by decide) (Text.isLine_of_isSolid b.isWord_text.2)) (by decide)
  · exact Text.isLine_append (Text.isLine_append (by decide) hdomain) (by decide)
  · exact Text.isLine_append (Text.isLine_append (Text.isLine_append (by decide)
      (Text.isLine_append hdomain (by decide))) (by decide)) (by decide)

theorem filterMap_front (fqdn : String) : c.front.filterMap (after? (recordStart fqdn)) = [] := by
  have hclosed : ∀ e ∈ ["interface: 127.0.0.1", "access-control: 127.0.0.0/8 allow"],
      after? "local-data: \"" e = none := by
    decide
  rw [List.filterMap_eq_nil_iff]
  simp only [front, List.mem_append, or_imp, forall_and, List.forall_mem_singleton,
    List.forall_mem_map, List.forall_mem_cons, quotedEntry, String.append_assoc]
  exact ⟨⟨⟨⟨Text.after?_append_of_eq_none (hclosed _ (by simp)) _,
      fun a _ => after?_recordStart_of_clashes (by decide) fqdn _⟩,
      Text.after?_append_of_eq_none (hclosed _ (by simp)) _⟩,
      fun b _ => after?_recordStart_of_clashes (by decide) fqdn _⟩,
    after?_recordStart_of_clashes (by decide) fqdn _,
    after?_recordStart_of_clashes (by decide) fqdn _⟩

theorem filterMap_resolvers (fqdn : String) :
    c.resolvers.filterMap (after? (recordStart fqdn)) = [] := by
  rw [List.filterMap_eq_nil_iff, resolvers]
  exact List.forall_mem_cons.mpr ⟨Text.after?_append_of_eq_none (by decide) _,
    List.forall_mem_map.mpr fun a _ => after?_recordStart_of_clashes (by decide) fqdn _⟩

theorem isLine_of_mem_lines (hc : c.IsPlain) :
    ∀ l ∈ clause "server" (c.front ++ c.records.flatMap NameRecord.entries ++
      c.blocklist.toList.map (quotedEntry "include")) ++ [""] ++ clause "forward-zone" c.resolvers,
      IsLine l := by
  have hresolvers : ∀ e ∈ c.resolvers, IsLine e :=
    List.forall_mem_cons.mpr ⟨by decide, List.forall_mem_map.mpr fun a _ =>
      Text.isLine_append (by decide) a.isLine_text⟩
  have hserver : ∀ e ∈ c.front ++ c.records.flatMap NameRecord.entries ++
      c.blocklist.toList.map (quotedEntry "include"), IsLine e := by
    simp only [List.mem_append, List.mem_flatMap, List.mem_map, Option.mem_toList]
    rintro e ((he | ⟨r, hr, he⟩) | ⟨p, hp, rfl⟩)
    · exact isLine_of_mem_front hc.domain e he
    · exact (hc.records r hr).isLine_of_mem_entries e he
    · exact Text.isLine_append (Text.isLine_append (by decide) (hc.blocklist p hp)) (by decide)
  simp only [List.mem_append, List.mem_singleton]
  rintro l ((hl | rfl) | hl)
  · exact isLine_of_mem_clause (by decide) hserver l hl
  · decide
  · exact isLine_of_mem_clause (by decide) hresolvers l hl

/-- The file has those addresses for a name that the configuration has for it. -/
theorem behind_text (hc : c.IsPlain) {fqdn : String} (hfqdn : IsSolid fqdn.toList) :
    behind (margin ++ recordStart fqdn) c.text =
      (c.records.filterMap fun r => r.address? fqdn).map fun a => a.text ++ "\"" := by
  have hstart : margin ++ recordStart fqdn ≠ "" := fun h => by
    simpa [margin] using congrArg String.toList h
  have hinclude : (c.blocklist.toList.map (quotedEntry "include")).filterMap
      (after? (recordStart fqdn)) = [] := by
    rw [List.filterMap_eq_nil_iff]
    refine List.forall_mem_map.mpr fun p _ => ?_
    rw [quotedEntry, String.append_assoc, String.append_assoc]
    exact after?_recordStart_of_clashes (by decide) fqdn _
  have hempty : after? (margin ++ recordStart fqdn) "" = none :=
    Text.after?_append_of_eq_none (by decide) _
  rw [text_eq, Text.behind_unlines hstart (isLine_of_mem_lines hc), List.filterMap_append,
    List.filterMap_append, filterMap_clause (by decide), filterMap_clause (by decide),
    filterMap_resolvers, List.filterMap_cons, hempty, List.filterMap_append,
    List.filterMap_append, filterMap_front, hinclude]
  simp only [List.filterMap_nil, List.append_nil, List.nil_append, List.filterMap_flatMap]
  rw [List.flatMap_congr fun r hr => (hc.records r hr).filterMap_entries hfqdn,
    ← List.filterMap_eq_flatMap_toList, List.map_filterMap]

end NameConfig

end NetworkCompiler.Provision
