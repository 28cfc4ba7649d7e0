import ForwardedIp.Proofs.VisitEffects
/-!
# What a written record says about the host

A visit compares texts and acts on IPs. Every entry of the record that it writes denotes an IP
that is bound with the host prefix, with one exception: a declared spelling of an IP whose printed
form was owned, bound and not declared. Such an IP is taken away under its printed form while its
other spelling enters the record. Declarations in printed form leave no such entry.
-/
namespace ForwardedIp.Visit

open RecordedSite MemorySite

variable {N : Type} [Site N] [MemorySite N] {live : List LiveInterface} {d : DeclaredInterface}
  {n n' : N} {w : Work} {t : String} {ip : IpAddr} {a : Attempt}

namespace Reconciliation

/-- What is read is bound with the host prefix or denotes no IP. -/
theorem host_mem_of_read (r : Reconciliation live d n w n') (ht : t ∈ w.bound)
    (hip : IpAddr.parse? t = some ip) : t = ip.text ∧ .host ip ∈ bound n w.iface.index := by
  obtain ⟨x, hx, rfl⟩ := r.mem_bound_text.mp ht
  have hhost : x = .host ip := LiveAddress.parse?_text.mp hip
  subst hhost
  exact ⟨LiveAddress.text_host ip, hx⟩

/-- An IP is unbound under its printed form only, once that is owned and no longer wanted. -/
theorem unbind_printed (r : Reconciliation live d n w n') (ha : a ∈ w.unbinds)
    (hip : IpAddr.parse? a.ip = some ip) : a.ip = ip.text ∧ .host ip ∈ bound n w.iface.index ∧
      ip.text ∈ w.recorded ∧ ip.text ∉ w.wanted := by
  obtain ⟨hbound, hrecorded, hwanted⟩ := r.unbind_mem ha
  obtain ⟨htext, hhost⟩ := r.host_mem_of_read hbound hip
  rw [htext] at hrecorded hwanted
  exact ⟨htext, hhost, hrecorded, hwanted⟩

/-- A wanted entry is bound once the additions are done, unless its addition failed. -/
theorem wanted_bound (r : Reconciliation live d n w n') (hwanted : t ∈ w.wanted)
    (hadded : ∀ a ∈ w.binds, a.ip = t → a.failed = false) (hip : IpAddr.parse? t = some ip) :
    .host ip ∈ bound n w.iface.index ∨ ∃ a ∈ w.binds, a.Did ip := by
  by_cases hread : t ∈ w.bound
  · exact .inl (r.host_mem_of_read hread hip).2
  · obtain ⟨a, ha, rfl⟩ := r.exists_bind hwanted hread
    exact .inr ⟨a, ha, hip, Attempt.failed_eq_false.mp (hadded a ha rfl)⟩

/-- Once the removals are done an IP that was bound before them is still bound unless one of them
succeeded on it. -/
theorem host_bound_iff (r : Reconciliation live d n w n')
    (h : .host ip ∈ bound n w.iface.index ∨ ∃ a ∈ w.binds, a.Did ip) :
    .host ip ∈ bound n' w.iface.index ↔ ∀ a ∈ w.unbinds, ¬ a.Did ip := by
  rw [r.mem_bound]
  constructor
  · exact fun hafter => hafter.2
  · intro hkept
    refine ⟨?_, hkept⟩
    rcases h with hbefore | ⟨a, ha, hdid⟩
    · exact .inl hbefore
    · exact .inr ⟨a, ha, ip, hdid, rfl⟩

/-- An entry of the new record denotes an IP that is bound unless the visit unbound it, which it
does under another text than the entry. -/
theorem entry_bound_iff (r : Reconciliation live d n w n') (ht : t ∈ w.next) :
    ∃ ip, IpAddr.parse? t = some ip ∧
      (.host ip ∈ bound n' w.iface.index ↔ ∀ a ∈ w.unbinds, ¬ a.Did ip) ∧
      ∀ a ∈ w.unbinds, a.Did ip → t ∈ w.wanted ∧ t ≠ a.ip := by
  rcases r.mem_next.mp ht with ⟨hwanted, hadded⟩ | ⟨b, hb, hfailed, rfl⟩
  · obtain ⟨ip, hip⟩ := r.wanted_ip hwanted
    refine ⟨ip, hip, r.host_bound_iff (r.wanted_bound hwanted hadded hip), fun a ha hdid => ?_⟩
    refine ⟨hwanted, ?_⟩
    rintro rfl
    exact (r.unbind_mem ha).2.2 hwanted
  · obtain ⟨ip, hip⟩ := r.recorded_ip (r.unbind_mem hb).2.1
    obtain ⟨hprinted, hhost, -, -⟩ := r.unbind_printed hb hip
    refine ⟨ip, hip, r.host_bound_iff (.inl hhost), fun a ha hdid => ?_⟩
    -- A successful removal of the IP would be the one that failed.
    obtain ⟨htext, -⟩ := r.unbind_printed ha hdid.1
    have heq : a = b := r.unbind_unique ha hb (htext.trans hprinted.symm)
    subst heq
    rw [Attempt.failed_eq_false.mpr hdid.2] at hfailed
    cases hfailed

/-- Declarations in printed form leave a record of nothing but what is bound. -/
theorem entry_bound_of_printed (r : Reconciliation live d n w n')
    (hprinted : Printed d.forwardedIps) (ht : t ∈ w.next) :
    ∃ ip, IpAddr.parse? t = some ip ∧ .host ip ∈ bound n' w.iface.index := by
  obtain ⟨ip, hip, hiff, hspelled⟩ := r.entry_bound_iff ht
  refine ⟨ip, hip, hiff.mpr fun a ha hdid => ?_⟩
  obtain ⟨hwanted, hne⟩ := hspelled a ha hdid
  have htext : t = ip.text := hprinted t (r.mem_wanted.mp hwanted).1 ip hip
  exact hne (htext.trans (r.unbind_printed ha hdid.1).1.symm)

end Reconciliation

/-- The record that a visit writes is truthful up to spelling: each entry denotes an IP that is
bound with the host prefix exactly if the visit did not unbind it, and it is unbound only under
its printed form, while the entry is another spelling of it. -/
theorem written_entry_bound_iff (hrun : (run live d).run n = (.reconciled w, n'))
    (hsaved : w.saved = .ok ()) : record n' w.mac.text = some w.next ∧
      ∀ t ∈ w.next, ∃ ip, IpAddr.parse? t = some ip ∧
        (.host ip ∈ bound n' w.iface.index ↔ ∀ a ∈ w.unbinds, ¬ a.Did ip) ∧
        ∀ a ∈ w.unbinds, a.Did ip → a.ip = ip.text ∧ .host ip ∈ bound n w.iface.index ∧
          ip.text ∈ w.recorded ∧ ip.text ∉ w.wanted ∧ t ∈ w.wanted ∧ t ≠ ip.text := by
  obtain ⟨r⟩ : Nonempty (Reconciliation live d n w n') := by
    cases goes hrun with
    | reconciled r => exact ⟨r⟩
  refine ⟨r.record_of_saved hsaved, fun t ht => ?_⟩
  obtain ⟨ip, hip, hiff, hspelled⟩ := r.entry_bound_iff ht
  refine ⟨ip, hip, hiff, fun a ha hdid => ?_⟩
  obtain ⟨htext, hhost, hrecorded, hunwanted⟩ := r.unbind_printed ha hdid.1
  obtain ⟨hwanted, hne⟩ := hspelled a ha hdid
  rw [htext] at hne
  exact ⟨htext, hhost, hrecorded, hunwanted, hwanted, hne⟩

/-- A machine on which the IPv6 loopback address is bound and recorded. -/
def loopbackMachine : Machine MemoryHost MemoryLedger :=
  .single "02:00:00:00:00:0a" [.host (.v6 ⟨[0, 0, 0, 0, 0, 0, 0, 1], rfl⟩)] ["::1"]

/-- The same address declared with every group written out. -/
def loopbackSpelled : DeclaredInterface := ⟨"02:00:00:00:00:0a", ["0:0:0:0:0:0:0:1"]⟩

/-- The spelled address is added next to the printed one, then both are removed. -/
theorem loopback_run : ∃ w m',
    (run loopbackMachine.host.interfaces loopbackSpelled).run loopbackMachine =
      (.reconciled w, m') ∧ w.saved = .ok () ∧ w.next = ["0:0:0:0:0:0:0:1"] ∧
        m'.host.bound = [(2, [])] := by
  have hbound : ((run loopbackMachine.host.interfaces loopbackSpelled).run
      loopbackMachine).2.host.bound = [(2, [])] := by decide +kernel
  have hvisit : ((run loopbackMachine.host.interfaces loopbackSpelled).run
      loopbackMachine).1.work?.any (fun w => w.saved.isOk && w.next == ["0:0:0:0:0:0:0:1"]) =
        true := by decide +kernel
  cases hrun : (run loopbackMachine.host.interfaces loopbackSpelled).run loopbackMachine with
  | mk v m' =>
  rw [hrun] at hbound hvisit
  cases v with
  | reconciled w =>
    obtain ⟨hsaved, hnext⟩ := Bool.and_eq_true_iff.mp hvisit
    refine ⟨w, m', rfl, ?_, eq_of_beq hnext, hbound⟩
    cases hw : w.saved with
    | ok u => rfl
    | error f =>
      rw [hw] at hsaved
      cases hsaved
  | _ => cases hvisit

theorem written_entry_not_bound : ¬ ∀ (m m' : Machine MemoryHost MemoryLedger)
    (d : DeclaredInterface) (w : Work), (m.host.interfaces.map LiveInterface.index).Nodup →
    (run m.host.interfaces d).run m = (.reconciled w, m') → w.saved = .ok () →
    ∀ t ∈ w.next, ∃ ip, IpAddr.parse? t = some ip ∧
      .host ip ∈ m'.host.addressesAt w.iface.index := by
  intro hall
  obtain ⟨w, m', hrun, hsaved, hnext, hbound⟩ := loopback_run
  have hmem : "0:0:0:0:0:0:0:1" ∈ w.next := by simp [hnext]
  obtain ⟨ip, -, hip⟩ := hall _ _ _ _ (by decide) hrun hsaved _ hmem
  have hnone : ∀ i, m'.host.addressesAt i = [] := by
    intro i
    simp only [MemoryHost.addressesAt, hbound, List.lookup_cons, List.lookup_nil]
    split <;> rfl
  rw [hnone] at hip
  cases hip

theorem loopback_entry_bound_iff : ∃ w m',
    (run loopbackMachine.host.interfaces loopbackSpelled).run loopbackMachine =
      (.reconciled w, m') ∧ record m' w.mac.text = some w.next ∧
        ∀ t ∈ w.next, ∃ ip, IpAddr.parse? t = some ip ∧
          (.host ip ∈ bound m' w.iface.index ↔ ∀ a ∈ w.unbinds, ¬ a.Did ip) := by
  obtain ⟨w, m', hrun, hsaved, -, -⟩ := loopback_run
  obtain ⟨hrecord, hentries⟩ := written_entry_bound_iff hrun hsaved
  refine ⟨w, m', hrun, hrecord, fun t ht => ?_⟩
  obtain ⟨ip, hip, hiff, -⟩ := hentries t ht
  exact ⟨ip, hip, hiff⟩

end ForwardedIp.Visit
