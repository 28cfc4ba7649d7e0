import ForwardedIp.Proofs.Ownership
/-!
# Where owned addresses come from

A new record starts from everything that is wanted. So an address that is wanted and that somebody
else has bound already is adopted: it is owned from then on, although the manager never bound it.
If nothing is recorded at the start, the manager removes only what it bound earlier in the run and
what it adopted.
-/
namespace ForwardedIp

open RecordedSite

namespace Visit.Reconciliation
variable {N : Type} [Site N] {live : List LiveInterface} {d : DeclaredInterface} {n n' : N}
  {w : Work} {t : String} {ip : IpAddr} {a : Attempt}

/-- An entry of the new record was owned before, got bound, or was wanted and bound already. -/
theorem entry_origin (r : Reconciliation live d n w n') (ht : t ∈ w.next) :
    t ∈ w.recorded ∨ (∃ a ∈ w.binds, a.ip = t ∧ a.answer = .ok ()) ∨
      (t ∈ w.wanted ∧ t ∈ w.bound) := by
  rcases r.mem_next.mp ht with ⟨hwanted, hadded⟩ | ⟨a, ha, -, rfl⟩
  · by_cases hbound : t ∈ w.bound
    · exact .inr (.inr ⟨hwanted, hbound⟩)
    · obtain ⟨a, ha, hip⟩ := r.exists_bind hwanted hbound
      exact .inr (.inl ⟨a, ha, hip, Attempt.failed_eq_false.mp (hadded a ha hip)⟩)
  · exact .inl (r.unbind_mem ha).2.1

theorem host_mem_addresses (r : Reconciliation live d n w n') (h : ip.text ∈ w.bound) :
    .host ip ∈ r.addresses := by
  rw [r.bound_eq] at h
  obtain ⟨x, hx, htext⟩ := List.mem_map.mp h
  rwa [LiveAddress.text_eq_text.mp htext] at hx

/-- What is unbound is unbound under its printed form, which is owned. -/
theorem unbind_recorded (r : Reconciliation live d n w n') (ha : a ∈ w.unbinds)
    (hip : IpAddr.parse? a.ip = some ip) : ip.text ∈ w.recorded := by
  rw [← r.printed_toRemove a.ip (r.unbinds_run.ip_mem ha) ip hip]
  exact (r.unbind_mem ha).2.1

end Visit.Reconciliation

namespace Passage
variable {N : Type} {p : Passage (Observed N)} {mac : Mac} {ip : IpAddr}

/-- A passage binds an IP on an interface with a hardware address. -/
def Binds (p : Passage (Observed N)) (mac : Mac) (ip : IpAddr) : Prop :=
  ∃ iface prefixLen, iface.mac = some mac ∧ .bind iface ip prefixLen (.ok ()) ∈ p.calls

/-- A passage adopts an IP for a hardware address: it wants the IP, and it reads that the IP is
bound there with the host prefix already. -/
def Adopts (p : Passage (Observed N)) (mac : Mac) (ip : IpAddr) : Prop :=
  p.Wants mac ip.text ∧ ∃ iface addresses, iface.mac = some mac ∧
    .addresses iface (.ok addresses) ∈ p.calls ∧ .host ip ∈ addresses

variable [Site N] [RecordedSite N]

/-- What a record holds after a passage it held before, or the passage bound it or adopted it. -/
theorem Goes.entry_origin (g : p.Goes) (h : ip.text ∈ (record p.after mac.text).getD []) :
    ip.text ∈ (record p.before mac.text).getD [] ∨ p.Binds mac ip ∨ p.Adopts mac ip := by
  rcases Visit.Goes.record_eq g mac.text with hold | ⟨w, r, -, hkey, hnew⟩
  · rw [hold] at h
    exact .inl h
  · obtain rfl : mac = w.mac := Mac.text_injective hkey
    rw [hnew] at h
    have hcalls : p.calls = r.calls := calls_of_reconciliation r
    rcases r.entry_origin h with hrecorded | ⟨a, ha, hip, hanswer⟩ | ⟨hwanted, hbound⟩
    · obtain ⟨entries, -, hentries, hmem⟩ := r.mem_record hrecorded
      rw [hentries]
      exact .inl hmem
    · refine .inr (.inl ⟨w.iface, ip.hostPrefix, r.iface_mac, ?_⟩)
      have hcall := r.bind_mem_calls ha (hip ▸ IpAddr.parse?_text ip)
      rwa [hanswer, ← hcalls] at hcall
    · refine .inr (.inr ⟨⟨r.mac_eq, r.wanted_eq ▸ hwanted⟩, w.iface, r.addresses, r.iface_mac, ?_,
        r.host_mem_addresses hbound⟩)
      rw [hcalls]
      simp [Visit.Reconciliation.calls]

theorem Goes.recorded_of_unbind (g : p.Goes) {iface : LiveInterface} {answer : Except Fault Unit}
    (h : .unbind iface ip answer ∈ p.calls) :
    ∃ mac, iface.mac = some mac ∧ ip.text ∈ (record p.before mac.text).getD [] := by
  obtain ⟨w, ⟨r⟩⟩ := g.reconciliation h rfl
  rw [calls_of_reconciliation r] at h
  obtain ⟨rfl, a, ha, hip, -⟩ := r.unbind_of_call h
  obtain ⟨entries, -, hentries, hmem⟩ := r.mem_record (r.unbind_recorded ha hip)
  refine ⟨w.mac, r.iface_mac, ?_⟩
  rw [hentries]
  exact hmem

/-- What a record holds after a chain it held before, or a passage of the chain bound it or
adopted it. -/
theorem Chain.entry_origin {o o' : Observed N} {ps : List (Passage (Observed N))}
    (h : Chain SameRecords o ps o') (hentry : ip.text ∈ (record o' mac.text).getD []) :
    ip.text ∈ (record o mac.text).getD [] ∨ ∃ q ∈ ps, q.Binds mac ip ∨ q.Adopts mac ip := by
  induction h with
  | @nil o o' hlast =>
    rw [show record o' = record o from hlast] at hentry
    exact .inl hentry
  | @cons o o' p ps hfirst hgoes rest ih =>
    rcases ih hentry with hafter | ⟨q, hq, horigin⟩
    · rcases hgoes.entry_origin hafter with hbefore | horigin
      · rw [show record p.before = record o from hfirst] at hbefore
        exact .inl hbefore
      · exact .inr ⟨p, List.mem_cons_self, horigin⟩
    · exact .inr ⟨q, List.mem_cons_of_mem p hq, horigin⟩

end Passage

namespace Managed
variable {N : Type} [Site N] [RecordedSite N]

/-- If nothing is recorded at the start of a run, every removal of the run is of an IP that an
earlier passage bound on an interface with the hardware address, or adopted for it. -/
theorem removals_bound_or_adopted (m : Managed N) (hs : List (Happening N))
    (hempty : ∀ key, record m.site key = none)
    (hout : ∀ change, .outside change ∈ hs → ∀ n : N, record (change n) = record n) :
    (m.calls hs).filter Call.changes =
        (m.passages hs).flatMap (fun p => p.calls.filter Call.changes) ∧
      ∀ earlier p later, m.passages hs = earlier ++ p :: later →
        ∀ iface ip answer, .unbind iface ip answer ∈ p.calls →
          ∃ mac, iface.mac = some mac ∧ ∃ q ∈ earlier, q.Binds mac ip ∨ q.Adopts mac ip := by
  refine ⟨m.filter_calls hs, ?_⟩
  intro earlier p later hsplit iface ip answer hcall
  have hchain := chain_run Passage.between_sameRecords m hs fun change hchange o =>
    hout change hchange o.site
  rw [hsplit] at hchain
  obtain ⟨hearlier, hgoes, -⟩ := hchain.split
  obtain ⟨mac, hmac, hrecorded⟩ := hgoes.recorded_of_unbind hcall
  refine ⟨mac, hmac, ?_⟩
  rcases hearlier.entry_origin hrecorded with hstart | horigin
  · rw [hempty] at hstart
    cases hstart
  · exact horigin

/-- A fresh reconciler without records, on a machine where somebody else has bound 10.0.0.5. -/
def newcomer : Managed (Machine MemoryHost MemoryLedger) where
  engine := Engine.fresh {}
  site :=
    { site :=
        { host :=
            { interfaces := [⟨"eth0", 2, Mac.parse? "02:00:00:00:00:0a"⟩]
              bound := [(2, [.host Machine.tenFive])] }
          ledger := {} } }

/-- The address is declared once and then withdrawn. -/
def shortLease : List (Happening (Machine MemoryHost MemoryLedger)) :=
  [.command (.apply { interfaces := [⟨"02:00:00:00:00:0a", ["10.0.0.5"]⟩] }),
    .command (.apply { interfaces := [⟨"02:00:00:00:00:0a", []⟩] })]

theorem record_newcomer (key : String) : record newcomer.site key = none := rfl

theorem shortLease_keeps
    {change : Machine MemoryHost MemoryLedger → Machine MemoryHost MemoryLedger}
    (h : .outside change ∈ shortLease) (n : Machine MemoryHost MemoryLedger) :
    record (change n) = record n := by
  simp [shortLease] at h

theorem newcomer_removes : ∃ earlier p later, newcomer.passages shortLease = earlier ++ p :: later ∧
    ∃ iface ip answer, .unbind iface ip answer ∈ p.calls := by
  have hany : (newcomer.calls shortLease).any Call.isUnbind = true := by decide +kernel
  obtain ⟨c, hc, hunbind⟩ := List.any_eq_true.mp hany
  cases c with
  | unbind iface ip answer =>
    obtain ⟨earlier, p, later, hsplit, hcall⟩ := exists_passage_of_call hc rfl
    exact ⟨earlier, p, later, hsplit, iface, ip, answer, hcall⟩
  | _ => cases hunbind

/-- What was adopted is removed although the manager never bound it. -/
theorem adopted_removed : ¬ ∀ (m : Managed (Machine MemoryHost MemoryLedger))
    (hs : List (Happening (Machine MemoryHost MemoryLedger))),
    (∀ key, record m.site key = none) →
    (∀ change, .outside change ∈ hs → ∀ n : Machine MemoryHost MemoryLedger,
      record (change n) = record n) →
    ∀ earlier p later, m.passages hs = earlier ++ p :: later →
      ∀ iface ip answer, .unbind iface ip answer ∈ p.calls →
        ∃ mac, iface.mac = some mac ∧ ∃ q ∈ earlier, q.Binds mac ip := by
  intro hall
  obtain ⟨earlier, p, later, hsplit, iface, ip, answer, hcall⟩ := newcomer_removes
  obtain ⟨mac, -, q, hq, iface', k, -, hbind⟩ := hall newcomer shortLease record_newcomer
    (fun _ => shortLease_keeps) earlier p later hsplit iface ip answer hcall
  have hmem : .bind iface' ip k (.ok ()) ∈ newcomer.calls shortLease :=
    calls_of_mem (hsplit ▸ List.mem_append_left _ hq) hbind rfl
  have hnone : (newcomer.calls shortLease).all (fun c => !c.isBind) = true := by decide +kernel
  have hbinds := List.all_eq_true.mp hnone _ hmem
  cases hbinds

theorem newcomer_adopted : ∃ p ∈ newcomer.passages shortLease, ∃ iface ip answer mac,
    .unbind iface ip answer ∈ p.calls ∧ iface.mac = some mac ∧
      ∃ q ∈ newcomer.passages shortLease, q.Binds mac ip ∨ q.Adopts mac ip := by
  obtain ⟨-, horigin⟩ := removals_bound_or_adopted newcomer shortLease record_newcomer
    fun _ => shortLease_keeps
  obtain ⟨earlier, p, later, hsplit, iface, ip, answer, hcall⟩ := newcomer_removes
  obtain ⟨mac, hmac, q, hq, hq'⟩ := horigin earlier p later hsplit iface ip answer hcall
  rw [hsplit]
  exact ⟨p, List.mem_append_right _ List.mem_cons_self, iface, ip, answer, mac, hcall, hmac, q,
    List.mem_append_left _ hq, hq'⟩

end Managed
end ForwardedIp
