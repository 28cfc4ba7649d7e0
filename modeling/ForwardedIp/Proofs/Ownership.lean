import ForwardedIp.Proofs.Runs
/-!
# Ownership over whole runs

The manager removes an address only if it owns it: the record that it has just read says so, and
nobody wants the address any more. Since nothing enters a record but what was wanted for its
hardware address, an owned address was in the record from the start or was wanted in the run.
-/
namespace ForwardedIp

open RecordedSite

namespace Passage
variable {N : Type} [Site N] [RecordedSite N]

def SameRecords (n n' : N) : Prop := record n' = record n

theorem between_sameRecords : Between (SameRecords : N → N → Prop) where
  refl _ := rfl
  trans h h' := Eq.trans h' h
  listed := interfaces_record

/-- What a record holds after a chain it held before, or a passage of the chain wanted it. -/
theorem Chain.mem_record {n n' : N} {ps : List (Passage N)} (h : Chain SameRecords n ps n')
    {mac : Mac} {text : String} (ht : text ∈ (record n' mac.text).getD []) :
    text ∈ (record n mac.text).getD [] ∨ ∃ q ∈ ps, q.Wants mac text := by
  induction h with
  | @nil n n' hlast =>
    rw [show record n' = record n from hlast] at ht
    exact .inl ht
  | @cons n n' p ps hfirst hgoes rest ih =>
    rcases ih ht with hafter | ⟨q, hq, hwants⟩
    · rcases Visit.Goes.mem_record hgoes hafter with hbefore | ⟨mac', hmac, hkey, hwanted⟩
      · rw [show record p.before = record n from hfirst] at hbefore
        exact .inl hbefore
      · cases Mac.text_injective hkey
        exact .inr ⟨p, List.mem_cons_self, hmac, hwanted⟩
    · exact .inr ⟨q, List.mem_cons_of_mem p hq, hwants⟩

end Passage

namespace Managed
variable {N : Type} [Site N] [RecordedSite N]

/-- Every removal of a run is of an address that the manager owns: its text is in the record and
among the addresses that were read for the declared interface, it is not wanted there, and it was
in the record at the start or was wanted for the hardware address earlier in the run. -/
theorem removals_owned (m : Managed N) (hs : List (Happening N))
    (hout : ∀ change, .outside change ∈ hs → ∀ n : N, record (change n) = record n) :
    (m.calls hs).filter Call.changes =
        (m.passages hs).flatMap (fun p => p.calls.filter Call.changes) ∧
      ∀ earlier p later, m.passages hs = earlier ++ p :: later →
        ∀ iface ip answer, .unbind iface ip answer ∈ p.calls →
          ∃ mac, iface.mac = some mac ∧ Mac.parse? p.declared.mac = some mac ∧
            (∃ entries, .readRecord mac.text (.ok (some entries)) ∈ p.calls ∧
              ip.text ∈ entries) ∧
            (∃ addresses, .addresses iface (.ok addresses) ∈ p.calls ∧
              ip.text ∈ addresses.map LiveAddress.text) ∧
            ¬ p.Wants mac ip.text ∧
            (ip.text ∈ (record m.site mac.text).getD [] ∨
              ∃ q ∈ earlier, q.Wants mac ip.text) := by
  refine ⟨m.filter_calls hs, ?_⟩
  intro earlier p later hsplit iface ip answer hcall
  have hchain := chain_run Passage.between_sameRecords m hs fun change hchange o =>
    hout change hchange o.site
  rw [hsplit] at hchain
  obtain ⟨hearlier, hgoes, -⟩ := hchain.split
  obtain ⟨w, ⟨r⟩⟩ := hgoes.reconciliation hcall rfl
  have hcalls : p.calls = r.calls := Passage.calls_of_reconciliation r
  rw [hcalls] at hcall
  obtain ⟨rfl, a, ha, hip, -⟩ := r.unbind_of_call hcall
  obtain ⟨hbound, hrecorded, hunwanted⟩ := r.unbind_mem ha
  -- What is removed was read as bound, so its text is the printed one.
  have hprinted : a.ip = ip.text := by
    rw [r.bound_eq] at hbound
    obtain ⟨x, -, hx⟩ := List.mem_map.mp hbound
    rw [← hx] at hip ⊢
    exact LiveAddress.eq_text_of_parse? hip
  rw [hprinted] at hbound hrecorded hunwanted
  obtain ⟨entries, hanswer, hrecord, hentry⟩ := r.mem_record hrecorded
  refine ⟨w.mac, r.iface_mac, r.mac_eq, ⟨entries, ?_, hentry⟩, ⟨r.addresses, ?_, ?_⟩, ?_, ?_⟩
  · rw [hcalls, ← hanswer]
    simp [Visit.Reconciliation.calls]
  · rw [hcalls]
    simp [Visit.Reconciliation.calls]
  · rw [← r.bound_eq]
    exact hbound
  · rintro ⟨-, hwanted⟩
    rw [← r.wanted_eq] at hwanted
    exact hunwanted hwanted
  · refine hearlier.mem_record ?_
    rw [hrecord]
    exact hentry

/-- A fresh reconciler on a machine where 10.0.0.5 is bound and recorded. -/
def owner : Managed (Machine MemoryHost MemoryLedger) where
  engine := Engine.fresh {}
  site := { site := .single "02:00:00:00:00:0a" [.host Machine.tenFive] ["10.0.0.5"] }

/-- The enumeration fails in one pass; the next one withdraws the address. -/
def withdrawal : List (Happening (Machine MemoryHost MemoryLedger)) :=
  [.outside fun m => { m with host.faults.enumerate := true },
    .command (.cycle { interfaces := [⟨"02-00-00-00-00-0A", []⟩] }),
    .outside fun m => { m with host.faults.enumerate := false },
    .command (.cycle { interfaces := [⟨"02-00-00-00-00-0A", []⟩] })]

theorem withdrawal_owned : ∃ p ∈ owner.passages withdrawal, ∃ iface ip answer mac,
    .unbind iface ip answer ∈ p.calls ∧ iface.mac = some mac ∧ ¬ p.Wants mac ip.text ∧
      (ip.text ∈ (record owner.site mac.text).getD [] ∨
        ∃ q ∈ owner.passages withdrawal, q.Wants mac ip.text) := by
  have hout : ∀ change, .outside change ∈ withdrawal →
      ∀ n : Machine MemoryHost MemoryLedger, record (change n) = record n := by
    intro change hchange n
    simp only [withdrawal, List.mem_cons, Happening.outside.injEq, reduceCtorEq, List.not_mem_nil,
      or_false, false_or] at hchange
    rcases hchange with rfl | rfl <;> rfl
  obtain ⟨hcalls, howned⟩ := removals_owned owner withdrawal hout
  have hany : (owner.calls withdrawal).any Call.isUnbind = true := by decide +kernel
  obtain ⟨c, hc, hunbind⟩ := List.any_eq_true.mp hany
  cases c with
  | unbind iface ip answer =>
    have hmem := List.mem_filter.mpr ⟨hc, (rfl : Call.changes (.unbind iface ip answer) = true)⟩
    rw [hcalls] at hmem
    obtain ⟨p, hp, hcp⟩ := List.mem_flatMap.mp hmem
    have hcall := (List.mem_filter.mp hcp).1
    obtain ⟨earlier, later, hsplit⟩ := List.append_of_mem hp
    obtain ⟨mac, hmac, -, -, -, hunwanted, horigin⟩ :=
      howned earlier p later hsplit iface ip answer hcall
    refine ⟨p, hp, iface, ip, answer, mac, hcall, hmac, hunwanted, ?_⟩
    rcases horigin with hstart | ⟨q, hq, hwants⟩
    · exact .inl hstart
    · exact .inr ⟨q, hsplit ▸ List.mem_append_left _ hq, hwants⟩
  | _ => cases hunbind

end Managed
end ForwardedIp
