import ForwardedIp.Proofs.CleanVisits
import ForwardedIp.Proofs.Cycles
/-!
# Convergence of a pass

A pass in which nothing fails brings every matched interface to its declaration, whatever was bound
or recorded before: what is wanted is bound with the host prefix, what was owned and is no longer
wanted is gone, everything else is still bound, and the record is what is wanted.
-/
namespace ForwardedIp

open RecordedSite MemorySite

variable {N : Type} [Site N] [MemorySite N]

/-- An IP is bound with the host prefix, owned by the record and not wanted. -/
def Withdrawn (d : DeclaredInterface) (mac : Mac) (iface : LiveInterface) (ip : IpAddr) (n : N) :
    Prop :=
  .host ip ∈ bound n iface.index ∧ ip.text ∈ (record n mac.text).getD [] ∧
    ip.text ∉ Visit.wantedOf d.forwardedIps

/-- A pass from `n` to `n'` brought an interface to its declaration. -/
structure Converged (d : DeclaredInterface) (mac : Mac) (iface : LiveInterface) (n n' : N) :
    Prop where
  wanted_bound : ∀ t ∈ Visit.wantedOf d.forwardedIps,
    ∃ ip, IpAddr.parse? t = some ip ∧ .host ip ∈ bound n' iface.index
  withdrawn_gone : ∀ ip, ip.text ∈ (record n mac.text).getD [] →
    ip.text ∉ Visit.wantedOf d.forwardedIps → .host ip ∉ bound n' iface.index
  others_kept : ∀ x ∈ bound n iface.index, ¬ Withdrawn d mac iface x.ip n →
    x ∈ bound n' iface.index
  record_eq : record n' mac.text = some (Visit.wantedOf d.forwardedIps)

namespace Visit.Reconciliation
variable {live : List LiveInterface} {d : DeclaredInterface} {n n' : N} {w : Work}

theorem withdrawn_of_did (r : Reconciliation live d n w n') {a : Attempt} {ip : IpAddr}
    (ha : a ∈ w.unbinds) (hdid : a.Did ip) : Withdrawn d w.mac w.iface ip n := by
  obtain ⟨-, hhost, hrecorded, hunwanted⟩ := r.unbind_printed ha hdid.1
  obtain ⟨entries, -, hentries, hmem⟩ := r.mem_record hrecorded
  rw [r.wanted_eq] at hunwanted
  refine ⟨hhost, ?_, hunwanted⟩
  rw [hentries]
  exact hmem

theorem withdrawn_gone (r : Reconciliation live d n w n') (hclean : w.Clean)
    (hprinted : Printed d.forwardedIps) (hread : ∃ entries, r.answer = .ok entries) {ip : IpAddr}
    (howned : ip.text ∈ (record n w.mac.text).getD []) (hunwanted : ip.text ∉ w.wanted) :
    .host ip ∉ bound n' w.iface.index := by
  intro hafter
  obtain ⟨hbefore, hkept⟩ := r.mem_bound.mp hafter
  have hrecorded : ip.text ∈ w.recorded := by
    refine r.mem_recorded (fun text hanswer => ?_) howned
    obtain ⟨entries, hok⟩ := hread
    rw [hanswer] at hok
    cases hok
  rcases hbefore with hbound | ⟨a, ha, other, hdid, hhost⟩
  · obtain ⟨a, ha, hip⟩ := r.exists_unbind (r.text_mem_bound.mpr hbound) hrecorded hunwanted
    have hparse : IpAddr.parse? a.ip = some ip := by rw [hip, IpAddr.parse?_text]
    exact hkept a ha ⟨hparse, Attempt.failed_eq_false.mp (hclean.unbinds a ha)⟩
  · -- What was bound in this visit was wanted in printed form.
    have hother : other = ip := (congrArg LiveAddress.ip hhost).symm
    subst hother
    obtain ⟨hwanted, -⟩ := r.bind_mem ha
    exact hunwanted (r.bind_printed hprinted ha hdid.1 ▸ hwanted)

theorem converged (r : Reconciliation live d n w n') (hclean : w.Clean)
    (hprinted : Printed d.forwardedIps) (hread : ∃ entries, r.answer = .ok entries) :
    Converged d w.mac w.iface n n' where
  wanted_bound := (r.settledAt hclean hprinted).bound_of_wanted
  withdrawn_gone := by
    intro ip howned hunwanted
    rw [← r.wanted_eq] at hunwanted
    exact r.withdrawn_gone hclean hprinted hread howned hunwanted
  others_kept := by
    intro x hx hkept
    exact r.mem_bound.mpr ⟨.inl hx, fun a ha hdid => hkept (r.withdrawn_of_did ha hdid)⟩
  record_eq := (r.settledAt hclean hprinted).record_eq

end Visit.Reconciliation

theorem Converged.of_alone {d : DeclaredInterface} {mac : Mac} {iface : LiveInterface}
    {p : Passage N} {n n' : N} (h : Converged d mac iface p.before p.after)
    (halone : p.Alone mac iface n n') : Converged d mac iface n n' where
  wanted_bound := by
    rw [halone.bound_after]
    exact h.wanted_bound
  withdrawn_gone := by
    rw [halone.bound_after, ← halone.record_before]
    exact h.withdrawn_gone
  others_kept := by
    have hwithdrawn : ∀ ip, Withdrawn d mac iface ip p.before ↔ Withdrawn d mac iface ip n := by
      intro ip
      rw [Withdrawn, Withdrawn, halone.bound_before, halone.record_before]
    intro x hx hkept
    rw [halone.bound_after]
    rw [← halone.bound_before] at hx
    exact h.others_kept x hx fun hgone => hkept ((hwithdrawn x.ip).mp hgone)
  record_eq := halone.record_after.trans h.record_eq

namespace Engine

/-- A pass in which nothing fails reports no failure and brings every matched interface to its
declaration. -/
theorem pass_converges (e : Engine) (s : Snapshot) (o : Observed N)
    (hindexes : ((listed o).map (·.index)).Nodup) (hmacs : DistinctMacs s.interfaces)
    (hprinted : s.Printed)
    (hcalls : ∀ c ∈ ((e.apply s).run o).2.calls.drop o.calls.length, c.failed = false) :
    (∃ report, ((e.apply s).run o).1.answer = .ok report ∧ report.failed = 0 ∧
        report.transient = 0) ∧
      ∀ d ∈ e.declaration s, ∀ mac iface, d.MatchedBy (listed o) mac iface →
        Converged d mac iface o ((e.apply s).run o).2 := by
  cases hrun : (e.apply s).run o with
  | mk step o' =>
  rw [hrun] at hcalls
  have happlies := applies hrun
  have hchain := happlies.chain Passage.between_quiet
  have hnever : ∀ p ∈ Passage.ofPass (e.declaration s) o, ∀ c ∈ p.calls, c.failed = false :=
    fun p hp c hc => hcalls c (hchain.mem_calls hp hc)
  have hconverged : ∀ p ∈ Passage.ofPass (e.declaration s) o, ∀ mac iface,
      p.declared.MatchedBy (listed o) mac iface → Converged p.declared mac iface o o' := by
    intro p hp mac iface hmatch
    rw [← Passage.live_of_mem_ofPass hp] at hmatch
    have halone := happlies.alone (separate_declaration (hmacs.separate hindexes)) hp hmatch
    obtain ⟨w, r, -, rfl, rfl, hread, hclean⟩ := halone.goes.clean_of_calls hmatch (hnever p hp)
    exact (r.converged hclean (printed_declaration hprinted _ (Passage.mem_ofPass hp).1)
      hread).of_alone halone
  cases happlies with
  | unlisted hlisted =>
    have hcall := hcalls _ (Observed.unlisted_mem_calls hlisted)
    cases hcall
  | @visited live visits o₁ _ hlisted hvisits =>
    refine ⟨⟨_, rfl, Report.hasFailures_eq_false.mp (Report.hasFailures_ofVisits.mpr ?_)⟩, ?_⟩
    · intro v hv
      have hmem : v ∈ (Passage.ofPass (e.declaration s) o).map (·.visit) := by
        rw [Passage.ofPass, hlisted, Passage.map_visit_ofVisits, hvisits]
        exact hv
      obtain ⟨p, hp, rfl⟩ := List.mem_map.mp hmem
      exact (hchain.goes_of_mem hp).visit_clean (hnever p hp)
    · intro d hd
      rw [← Passage.map_declared_ofPass (e.declaration s) hlisted] at hd
      obtain ⟨p, hp, rfl⟩ := List.mem_map.mp hd
      exact hconverged p hp

/-- The hardware address 02:00:00:00:00:0a. -/
def firstPort : Mac := ⟨[2, 0, 0, 0, 0, 10], rfl⟩

/-- Two interfaces. On the first 10.0.0.5 is bound twice and owned, and 10.0.0.6 is bound by
somebody else; on the second 10.0.0.5 is bound by somebody else. -/
def twoPorts : Machine MemoryHost MemoryLedger where
  host :=
    { interfaces :=
        [⟨"eth0", 2, some firstPort⟩, ⟨"eth1", 3, Mac.parse? "02:00:00:00:00:0b"⟩]
      bound := [(2, [⟨Machine.tenFive, 24⟩, .host Machine.tenFive, .host Machine.tenSix]),
        (3, [.host Machine.tenFive])] }
  ledger := ⟨[("02:00:00:00:00:0a", ["no address", "10.0.0.5"])]⟩

/-- The first interface is to have nothing, the second 10.0.0.6. -/
def swap : Snapshot where
  interfaces := [⟨"0200.0000.000A", []⟩, ⟨"02-00-00-00-00-0b", ["10.0.0.6", "10.0.0.6", "none"]⟩]

theorem swap_converges : (∃ report, (((fresh {}).apply swap).run
      ({ site := twoPorts } : Observed _)).1.answer = .ok report ∧ report.failed = 0 ∧
        report.transient = 0) ∧
    Converged ⟨"0200.0000.000A", []⟩ firstPort ⟨"eth0", 2, some firstPort⟩ { site := twoPorts }
      (((fresh {}).apply swap).run ({ site := twoPorts } : Observed _)).2 := by
  obtain ⟨hreport, hconverged⟩ := pass_converges (fresh {}) swap
    ({ site := twoPorts } : Observed (Machine MemoryHost MemoryLedger)) (by decide)
    (by decide +kernel) (by decide +kernel) (by decide +kernel)
  have hmatch : DeclaredInterface.MatchedBy (listed twoPorts) ⟨"0200.0000.000A", []⟩ firstPort
      ⟨"eth0", 2, some firstPort⟩ := ⟨by decide +kernel, by decide +kernel⟩
  exact ⟨hreport, hconverged _ (by decide +kernel) _ _ hmatch⟩

end Engine
end ForwardedIp
