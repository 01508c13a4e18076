import NetworkCompiler.Proofs.Provision.LeaseAssignments

/-!
# Names of reservations

The name of a reservation is the label of the machine and the name of the interface with a hyphen
between them, and both may have hyphens of their own. Two reservations have one name exactly if one
label goes on where the other ends, and the interface on the other side makes up for it
(`Lease.RunsInto`). `reservationNames_apart_iff` says that this is the only way in which the names
of a compiled network clash; it needs an interface whose name has a hyphen.
-/

namespace NetworkCompiler

/-! ## One name for two -/

/-- The label of the second reservation is the first with a further part, and the interface of the
first begins with that part. -/
def Lease.RunsInto (k l : Lease) : Prop :=
  ∃ part, l.label = k.label ++ "-" ++ part ∧ k.iface = part ++ "-" ++ l.iface

theorem Lease.RunsInto.mem_iface {k l : Lease} (h : k.RunsInto l) : '-' ∈ k.iface.toList := by
  obtain ⟨part, -, hiface⟩ := h
  simp [hiface]

theorem Lease.RunsInto.label_ne {k l : Lease} (h : k.RunsInto l) : k.label ≠ l.label := by
  intro heq
  obtain ⟨part, hlabel, -⟩ := h
  have hlength := congrArg String.length (heq.trans hlabel)
  simp only [String.length_append] at hlength
  have hhyphen : "-".length = 1 := by decide
  omega

namespace Provision

theorem reservationName_eq_iff {k l : Lease} :
    reservationName k = reservationName l ↔
      (k.label = l.label ∧ k.iface = l.iface) ∨ k.RunsInto l ∨ l.RunsInto k := by
  have hchars : ∀ l : Lease, (reservationName l).toList = l.label.toList ++ '-' :: l.iface.toList :=
    fun l => by simp [reservationName]
  have hruns : ∀ k l : Lease, k.RunsInto l ↔
      ∃ cs, l.label.toList = k.label.toList ++ '-' :: cs ∧
        k.iface.toList = cs ++ '-' :: l.iface.toList := by
    intro k l
    constructor
    · rintro ⟨part, hlabel, hiface⟩
      exact ⟨part.toList, by simp [hlabel], by simp [hiface]⟩
    · rintro ⟨cs, hlabel, hiface⟩
      exact ⟨String.ofList cs, String.toList_inj.mp (by simp [hlabel]),
        String.toList_inj.mp (by simp [hiface])⟩
  rw [← String.toList_inj, hchars, hchars, append_cons_eq_append_cons_iff, hruns, hruns,
    String.toList_inj, String.toList_inj]

end Provision

/-! ## Places -/

section Places

variable {name : String} {d : Description} {g : Graph} {s : Settings} {t : Topology}
variable (hg : Graph.ofDescription name d s = .ok g) (h : t.IsBuilt g s)
variable {a b : Assignment} (ha : a ∈ t.assignments) (hb : b ∈ t.assignments)
include hg h ha hb

theorem Topology.IsBuilt.label_lease_eq_iff :
    (a.lease g).label = (b.lease g).label ↔ a.machine = b.machine := by
  obtain ⟨m, hm, -⟩ := h.exists_machine_of_mem ha
  obtain ⟨m', hm', -⟩ := h.exists_machine_of_mem hb
  rw [Assignment.lease_eq hm, Assignment.lease_eq hm']
  refine ⟨fun heq => Graph.id_unique hg hm hm' heq, fun heq => ?_⟩
  rw [heq] at hm
  exact congrArg Machine.label (Option.some.inj (hm.symm.trans hm'))

/-- The machine and the interface of an assignment belong to no other. -/
theorem Topology.IsBuilt.eq_of_place (hkeys : d.NamesLanOnce) (hmachine : a.machine = b.machine)
    (hiface : a.iface = b.iface) : a = b := by
  obtain ⟨m, hm, hrouter, -⟩ := h.exists_machine_of_mem ha
  have hmem : m ∈ g.machines := List.mem_of_getElem? hm
  have hnames : (t.assignmentsOf a.machine).map (·.iface) = m.lan.map (·.name) :=
    (map_eq_map_of_forall₂ (h.assignmentsOf_of_isDeclared hm (Graph.isDeclared hg hmem) hrouter)
      fun _ _ hia => hia.1.symm).symm
  exact List.inj_on_of_nodup_map (hnames ▸ Graph.nodup_lan hg hmem hkeys)
    (List.mem_filter.mpr ⟨ha, decide_eq_true rfl⟩)
    (List.mem_filter.mpr ⟨hb, decide_eq_true hmachine.symm⟩) hiface

theorem Provision.reservationName_lease_eq_iff :
    reservationName (a.lease g) = reservationName (b.lease g) ↔
      (a.machine = b.machine ∧ a.iface = b.iface) ∨
        (a.lease g).RunsInto (b.lease g) ∨ (b.lease g).RunsInto (a.lease g) := by
  rw [reservationName_eq_iff, h.label_lease_eq_iff hg ha hb]
  rfl

omit ha hb in
/-- The names of all reservations are distinct exactly if none runs into another. -/
theorem Provision.nodup_reservationNames_iff (hs : s.Valid) (hkeys : d.NamesLanOnce) :
    ((t.leases g).map reservationName).Nodup ↔ ∀ a ∈ t.assignments, ∀ b ∈ t.assignments,
      ¬(a.lease g).RunsInto (b.lease g) := by
  have hassigned : t.assignments.Nodup :=
    List.Nodup.of_map _ (List.nodup_append.mp (h.nodup_addresses hs)).2.1
  rw [((h.leases_perm hs).map reservationName).nodup_iff, List.map_map,
    List.nodup_map_iff_inj_on hassigned]
  constructor
  · intro hinj a ha b hb hruns
    obtain rfl : a = b := hinj a ha b hb
      ((reservationName_lease_eq_iff hg h ha hb).mpr (.inr (.inl hruns)))
    exact hruns.label_ne rfl
  · intro hnone a ha b hb hsame
    rcases (reservationName_lease_eq_iff hg h ha hb).mp hsame with ⟨hmachine, hiface⟩ | hruns
    · exact h.eq_of_place hg ha hb hkeys hmachine hiface
    · exact (hruns.elim (hnone a ha b hb) (hnone b hb a ha)).elim

end Places

namespace Provision

open LeaseFile (IsQuotable hosts?)

/-- The names that are read off the file are those of the reservations. -/
theorem names_of_hosts? {name : String} {d : Description} {s : Settings} {n : CompiledNetwork}
    (hn : (CompiledNetwork.ofDescription name d s).result = .ok n) {secrets : Secrets}
    {c : Context} (hc : c ∈ managedContexts n secrets)
    (hifaces : ∀ a ∈ n.topology.assignments, LeaseFile.IsBare a.iface)
    (hdomain : IsQuotable n.graph.domain) :
    (hosts? (leaseConfig c).text).map (List.map (·.name)) =
      some ((n.topology.leases n.graph).map reservationName) := by
  have hbare := isBare_leaseConfig hn hc hifaces
  obtain ⟨rfl, -⟩ := mem_managedContexts hc
  rw [LeaseConfig.hosts?_text hbare hdomain, Option.map_some, List.map_map]
  rfl

/-- In a compiled network two assignments have reservations of one name exactly if they belong to
one interface of one machine, or one of the reservations runs into the other. So the names are
distinct exactly if none runs into another, as long as no entry of the description names an
interface twice, and they are distinct if no interface has a hyphen in its name. These are the
names that are read off the file, if the names in it are words and the domain may stand between
quotes. -/
theorem reservationNames_apart_iff (name : String) (d : Description) (s : Settings) (hs : s.Valid)
    (n : CompiledNetwork) (hn : (CompiledNetwork.ofDescription name d s).result = .ok n)
    (secrets : Secrets) (c : Context) (hc : c ∈ managedContexts n secrets) :
    (∀ a ∈ n.topology.assignments, ∀ b ∈ n.topology.assignments,
      (reservationName (a.lease n.graph) = reservationName (b.lease n.graph) ↔
        (a.machine = b.machine ∧ a.iface = b.iface) ∨
          (a.lease n.graph).RunsInto (b.lease n.graph) ∨
          (b.lease n.graph).RunsInto (a.lease n.graph))) ∧
    (d.NamesLanOnce →
      (((n.topology.leases n.graph).map reservationName).Nodup ↔
        ∀ a ∈ n.topology.assignments, ∀ b ∈ n.topology.assignments,
          ¬(a.lease n.graph).RunsInto (b.lease n.graph)) ∧
      ((∀ a ∈ n.topology.assignments, '-' ∉ a.iface.toList) →
        ((n.topology.leases n.graph).map reservationName).Nodup)) ∧
    ((∀ a ∈ n.topology.assignments, LeaseFile.IsBare a.iface) → IsQuotable n.graph.domain →
      (hosts? (leaseConfig c).text).map (List.map (·.name)) =
        some ((n.topology.leases n.graph).map reservationName)) := by
  obtain ⟨hg, ht, -⟩ := CompiledNetwork.ofDescription_eq_ok hn
  have h := Topology.isBuilt_of_ofGraph ht
  refine ⟨fun a ha b hb => reservationName_lease_eq_iff hg h ha hb, fun hkeys => ?_,
    names_of_hosts? hn hc⟩
  have hiff := nodup_reservationNames_iff hg h hs hkeys
  refine ⟨hiff, fun hhyphen => hiff.mpr fun a ha b _ hruns => ?_⟩
  exact hhyphen a ha hruns.mem_iface

theorem reservationNames_apart_iff_lab :
    Settings.default.Valid ∧ describedLab.NamesLanOnce ∧ ∃ n,
      (CompiledNetwork.ofDescription "lab" describedLab .default).result = .ok n ∧
      ∃ c ∈ managedContexts n .builtin,
        (∀ a ∈ n.topology.assignments, LeaseFile.IsBare a.iface) ∧ IsQuotable n.graph.domain ∧
        ((n.topology.leases n.graph).map reservationName).Nodup ∧
        (hosts? (leaseConfig c).text).map (List.map (·.name)) =
          some ["mail-lan0", "web-lan0"] := by
  have hvalid : Settings.default.Valid := by decide
  have hkeys : describedLab.NamesLanOnce := by decide
  have hlab : (CompiledNetwork.ofDescription "lab" describedLab .default).result.map (fun n =>
      decide ((∀ a ∈ n.topology.assignments, LeaseFile.IsBare a.iface) ∧
        IsQuotable n.graph.domain ∧ (∀ a ∈ n.topology.assignments, '-' ∉ a.iface.toList) ∧
        (n.topology.leases n.graph).map reservationName = ["mail-lan0", "web-lan0"] ∧
        managedContexts n .builtin ≠ [])) = .ok true := by
    decide +kernel
  obtain ⟨n, hn, hlab⟩ := map_eq_ok.mp hlab
  obtain ⟨hifaces, hdomain, hhyphen, hnames, hmanaged⟩ := of_decide_eq_true hlab
  obtain ⟨c, hc⟩ := List.exists_mem_of_ne_nil _ hmanaged
  obtain ⟨-, hapart, hread⟩ :=
    reservationNames_apart_iff "lab" describedLab .default hvalid n hn .builtin c hc
  refine ⟨hvalid, hkeys, n, hn, c, hc, hifaces, hdomain, (hapart hkeys).2 hhyphen, ?_⟩
  rw [hread hifaces hdomain, hnames]

/-- The interface of one server begins with the part that the label of the other has more. -/
def hyphenLab : Description where
  servers := [
    ("router", { types := ["router"], lan := [("eth0", {})], wan := [("eth1", {})] }),
    ("web", { types := ["dedicated"], lan := [("a-lan0", { mac := some "02:00:00:00:00:01" })] }),
    ("web-a", { types := ["dedicated"], lan := [("lan0", { mac := some "02:00:00:00:00:02" })] })]

/-- The reservations of two machines have one name, and so have their hosts in the file. -/
theorem reservations_share_name :
    ∃ n, (CompiledNetwork.ofDescription "lab" hyphenLab .default).result = .ok n ∧
      (∃ a ∈ n.topology.assignments, ∃ b ∈ n.topology.assignments, a.machine ≠ b.machine ∧
        reservationName (a.lease n.graph) = reservationName (b.lease n.graph)) ∧
      ∃ c ∈ managedContexts n .builtin, c.machine.isRouter = true ∧
        (hosts? (leaseConfig c).text).map (List.map (·.name)) =
          some ["web-a-lan0", "web-a-lan0"] := by
  have hlab : (CompiledNetwork.ofDescription "lab" hyphenLab .default).result.map (fun n =>
      decide ((∃ a ∈ n.topology.assignments, ∃ b ∈ n.topology.assignments,
          a.machine ≠ b.machine ∧
          reservationName (a.lease n.graph) = reservationName (b.lease n.graph)) ∧
        (∀ a ∈ n.topology.assignments, LeaseFile.IsBare a.iface) ∧ IsQuotable n.graph.domain ∧
        (n.topology.leases n.graph).map reservationName = ["web-a-lan0", "web-a-lan0"] ∧
        ∃ c ∈ managedContexts n .builtin, c.machine.isRouter = true)) = .ok true := by
    decide +kernel
  obtain ⟨n, hn, hlab⟩ := map_eq_ok.mp hlab
  obtain ⟨hsame, hifaces, hdomain, hnames, c, hc, hrouter⟩ := of_decide_eq_true hlab
  refine ⟨n, hn, hsame, c, hc, hrouter, ?_⟩
  rw [names_of_hosts? hn hc hifaces hdomain, hnames]

end Provision

end NetworkCompiler
