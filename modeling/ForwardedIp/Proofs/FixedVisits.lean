import Mathlib.Data.Finset.Dedup
import ForwardedIp.Proofs.Differences
import ForwardedIp.Proofs.FixedFaults
/-!
# Visits that want the same addresses

Where the same fails all the time, what comes of an attempt depends on its text alone. So two
visits that want the same addresses, in any order and any number of times, make the same attempts,
count the same, bind the same addresses and record the same.
-/
namespace ForwardedIp

open RecordedLedger

/-- Two interfaces are declared with the same hardware address and the same forwarded addresses,
in any order and any number of times. -/
structure DeclaredInterface.SameAddresses (d d' : DeclaredInterface) : Prop where
  mac_eq : d.mac = d'.mac
  mem_iff : ∀ ip, ip ∈ d.forwardedIps ↔ ip ∈ d'.forwardedIps

namespace Visit

theorem wantedOf_perm {declared declared' : List String}
    (h : ∀ ip, ip ∈ declared ↔ ip ∈ declared') : (wantedOf declared).Perm (wantedOf declared') := by
  refine (List.perm_ext_iff_of_nodup ((nodup_eraseDups declared).filter _)
    ((nodup_eraseDups declared').filter _)).mpr fun ip => ?_
  rw [← wantedOf, ← wantedOf, mem_wantedOf, mem_wantedOf, h]

/-- A visit gets as far as work or it does not, whatever addresses are declared. -/
theorem run_of_mac {N : Type} [Site N] (live : List LiveInterface) (mac : String) (n : N) :
    (∃ v n', ∀ ips, (run live ⟨mac, ips⟩).run n = (v, n')) ∨
    ∃ mac' iface bound recorded n', (∀ ip ∈ recorded, IpAddr.isIp ip = true) ∧
      ∀ ips, (run live ⟨mac, ips⟩).run n =
        (.reconciled ((carryOut mac' iface bound recorded ips).run n').1,
          ((carryOut mac' iface bound recorded ips).run n').2) := by
  cases hmac : Mac.parse? mac with
  | none => exact .inl ⟨.unparseable mac, n, fun ips => run_unparseable (d := ⟨mac, ips⟩) hmac⟩
  | some mac' =>
    cases hiface : matching? live mac' with
    | none =>
      exact .inl ⟨.unmatched mac mac', n, fun ips => run_unmatched (d := ⟨mac, ips⟩) hmac hiface⟩
    | some iface =>
      have hmatch (ips : List String) :
          (⟨mac, ips⟩ : DeclaredInterface).MatchedBy live mac' iface := ⟨hmac, hiface⟩
      cases haddresses : (Site.addresses iface).run n with
      | mk found n₁ =>
      cases found with
      | error fault => exact .inl ⟨_, n₁, fun ips => run_unreadable (hmatch ips) haddresses⟩
      | ok addresses =>
        cases hread : (Site.readRecord mac'.text).run n₁ with
        | mk answer n₂ =>
        cases hrecalled : recalled answer with
        | error fault =>
          exact .inl ⟨_, n₂, fun ips => run_unrecorded (hmatch ips) haddresses hread hrecalled⟩
        | ok recorded =>
          refine .inr ⟨mac', iface, addresses.map LiveAddress.text, recorded, n₂, ?_, ?_⟩
          · exact fun ip hip => (isIp_of_mem_recalled hrecalled hip).1
          · exact fun ips => run_reconciled (hmatch ips) haddresses hread hrecalled rfl

section Fixed
open Machine
variable {L : Type} [LedgerStore L] [FixedLedger L] {mac : Mac} {iface : LiveInterface}
  {bound recorded declared declared' : List String}

/-- On two machines the same fails and the same is recorded, whatever is bound. -/
abbrev AgreeUnbound : Machine MemoryHost L → Machine MemoryHost L → Prop :=
  Agree (fun _ => True) (fun _ => False)

/-- Attempts that look at nothing that they change answer as they would at the start. -/
theorem answers_of_attempts {act : String → StateM (Machine MemoryHost L) Attempt}
    (hlooks : ∀ ip, LooksAt AgreeUnbound (act ip)) (hleaves : ∀ ip, Leaves AgreeUnbound (act ip))
    (texts : List String) (m : Machine MemoryHost L) :
    ((texts.mapM act).run m).1 = texts.map (fun ip => ((act ip).run m).1) ∧
      AgreeUnbound m ((texts.mapM act).run m).2 := by
  have hindependent : Independent act (fun _ => AgreeUnbound) texts :=
    ⟨fun _ => agree_equivalence, fun ip _ => hlooks ip,
      List.pairwise_of_forall_mem_list fun ip _ ip' _ => ⟨hleaves ip', hleaves ip⟩⟩
  exact ⟨hindependent.answers m, Leaves.mapM agree_equivalence (fun ip _ => hleaves ip) m⟩

theorem bindTexts_fixed {texts : List String} (htexts : ∀ ip ∈ texts, IpAddr.isIp ip = true)
    {m m' : Machine MemoryHost L} {binds : List Attempt}
    (hrun : (texts.mapM (bindText iface)).run m = (binds, m')) :
    binds = texts.map (fun ip => ((bindText iface ip).run m).1) ∧ AgreeUnbound m m' ∧
      m'.host.addressesAt iface.index =
        m.host.addressesAt iface.index ++ binds.filterMap Attempt.bound? := by
  obtain ⟨hanswers, hagree⟩ := answers_of_attempts (looksAt_bindText (L := L) iface)
    (leaves_bindText id) texts m
  have hbound := (Tries.of_mapM (fun text ip n => bindText_run iface n) htexts m).bound_binds
  rw [hrun] at hanswers hagree hbound
  exact ⟨hanswers, hagree, hbound⟩

theorem unbindTexts_fixed {texts : List String} (htexts : ∀ ip ∈ texts, IpAddr.isIp ip = true)
    {m m' : Machine MemoryHost L} {unbinds : List Attempt}
    (hrun : (texts.mapM (unbindText iface)).run m = (unbinds, m')) :
    unbinds = texts.map (fun ip => ((unbindText iface ip).run m).1) ∧ AgreeUnbound m m' ∧
      m'.host.addressesAt iface.index =
        (m.host.addressesAt iface.index).filter (Attempt.spare unbinds) := by
  obtain ⟨hanswers, hagree⟩ := answers_of_attempts (looksAt_unbindText (L := L) iface)
    (leaves_unbindText id) texts m
  have hbound := (Tries.of_mapM (fun text ip n => unbindText_run iface n) htexts m).bound_unbinds
  rw [hrun] at hanswers hagree hbound
  exact ⟨hanswers, hagree, hbound⟩

/-- What comes of work where the same fails all the time: every attempt answers as it would before
the work. -/
structure Foreseen (m : Machine MemoryHost L) (mac : Mac) (iface : LiveInterface)
    (bound recorded declared : List String) (w : Work) (m' : Machine MemoryHost L) : Prop where
  binds_eq : w.binds = (AddressDiff.between recorded (wantedOf declared) bound).toAdd.map
    fun ip => ((bindText iface ip).run m).1
  unbinds_eq : w.unbinds = (AddressDiff.between recorded (wantedOf declared) bound).toRemove.map
    fun ip => ((unbindText iface ip).run m).1
  next_eq : w.next = nextRecord (wantedOf declared) w.binds w.unbinds
  saved_eq : w.saved = ((Site.writeRecord mac.text []).run m).1
  bound_after : m'.host.addressesAt iface.index =
    (m.host.addressesAt iface.index ++ w.binds.filterMap Attempt.bound?).filter
      (Attempt.spare w.unbinds)
  record_after : record m'.ledger mac.text =
    if FixedLedger.lands (FixedLedger.faults m.ledger) mac.text then some w.next
    else record m.ledger mac.text
  elsewhere : Agree (· ≠ mac.text) (· ≠ iface.index) m m'

theorem foreseen (hrecorded : ∀ ip ∈ recorded, IpAddr.isIp ip = true)
    {m m' : Machine MemoryHost L} {w : Work}
    (hrun : (carryOut mac iface bound recorded declared).run m = (w, m')) :
    Foreseen m mac iface bound recorded declared w m' := by
  let diff := AddressDiff.between recorded (wantedOf declared) bound
  have hadd : ∀ ip ∈ diff.toAdd, IpAddr.isIp ip = true := fun ip hip =>
    (mem_wantedOf.mp (AddressDiff.mem_toAdd.mp hip).1).2
  have hremove : ∀ ip ∈ diff.toRemove, IpAddr.isIp ip = true := fun ip hip =>
    hrecorded ip (AddressDiff.mem_toRemove.mp hip).2.1
  have helsewhere : Agree (· ≠ mac.text) (· ≠ iface.index) m m' := by
    have hleaves : Leaves (Agree (L := L) (· ≠ mac.text) (· ≠ iface.index))
        (carryOut mac iface bound recorded declared) :=
      leaves_carryOut (fun hne => hne rfl) (fun hne => hne rfl) bound recorded declared
    have helsewhere := hleaves m
    rwa [hrun] at helsewhere
  cases hbinds : (diff.toAdd.mapM (bindText iface)).run m with
  | mk binds m₁ =>
  cases hunbinds : (diff.toRemove.mapM (unbindText iface)).run m₁ with
  | mk unbinds m₂ =>
  obtain ⟨hbinds', hagree₁, hbound₁⟩ := bindTexts_fixed hadd hbinds
  obtain ⟨hunbinds', hagree₂, hbound₂⟩ := unbindTexts_fixed hremove hunbinds
  have hagree : AgreeUnbound m m₂ := agree_equivalence.trans hagree₁ hagree₂
  unfold carryOut at hrun
  rw [run_bind hbinds, run_bind hunbinds] at hrun
  cases hrun
  refine ⟨hbinds', ?_, rfl, ?_, ?_, ?_, helsewhere⟩
  · exact hunbinds'.trans
      (List.map_congr_left fun ip _ => (looksAt_unbindText iface ip hagree₁).1.symm)
  · exact FixedLedger.write_congr mac.text _ [] hagree.ledger_faults.symm
  · change m₂.host.addressesAt iface.index = _
    rw [hbound₂, hbound₁]
  · change record ((LedgerStore.write mac.text _).run m₂.ledger).2 mac.text = _
    rw [FixedLedger.write_record, ← hagree.ledger_faults, ← hagree.record_eq mac.text trivial]

variable {m m₁ m₁' : Machine MemoryHost L} {w w' : Work}

namespace Foreseen

/-- Work on the same addresses, in any order and any number of times. -/
theorem attempts_perm (h : Foreseen m mac iface bound recorded declared w m₁)
    (h' : Foreseen m mac iface bound recorded declared' w' m₁')
    (hsame : ∀ ip, ip ∈ declared ↔ ip ∈ declared') :
    w.binds.Perm w'.binds ∧ w.unbinds = w'.unbinds ∧ ∀ ip, ip ∈ w.next ↔ ip ∈ w'.next := by
  have hwanted := wantedOf_perm hsame
  obtain ⟨hadd, hremove⟩ := AddressDiff.between_wanted_perm recorded bound hwanted
  have hbinds : w.binds.Perm w'.binds := by
    rw [h.binds_eq, h'.binds_eq]
    exact hadd.map _
  have hunbinds : w.unbinds = w'.unbinds := by rw [h.unbinds_eq, h'.unbinds_eq, hremove]
  refine ⟨hbinds, hunbinds, fun ip => ?_⟩
  rw [h.next_eq, h'.next_eq, mem_nextRecord, mem_nextRecord, hwanted.mem_iff, hunbinds]
  simp only [hbinds.mem_iff]

theorem report_eq (h : Foreseen m mac iface bound recorded declared w m₁)
    (h' : Foreseen m mac iface bound recorded declared' w' m₁')
    (hsame : ∀ ip, ip ∈ declared ↔ ip ∈ declared') :
    Report.add {} (.reconciled w) = Report.add {} (.reconciled w') := by
  obtain ⟨hbinds, hunbinds, -⟩ := h.attempts_perm h' hsame
  change Report.addWork {} w = Report.addWork {} w'
  rw [Report.addWork, Report.addWork, hbinds.countP_eq, hbinds.countP_eq, hunbinds, h.saved_eq,
    h'.saved_eq]

/-- The same addresses are bound and recorded, in some order. -/
theorem compare (h : Foreseen m mac iface bound recorded declared w m₁)
    (h' : Foreseen m mac iface bound recorded declared' w' m₁')
    (hsame : ∀ ip, ip ∈ declared ↔ ip ∈ declared') :
    m₁.Compare (fun found found' => found.toFinset = found'.toFinset)
      (fun r r' => r.map List.toFinset = r'.map List.toFinset) m₁' where
  bound index := by
    by_cases hindex : index = iface.index
    · subst hindex
      obtain ⟨hbinds, hunbinds, -⟩ := h.attempts_perm h' hsame
      have hperm := ((hbinds.filterMap Attempt.bound?).append_left
        (m.host.addressesAt iface.index)).filter (Attempt.spare w'.unbinds)
      rw [h.bound_after, h'.bound_after, hunbinds]
      exact List.toFinset_eq_of_perm _ _ hperm
    · rw [← h.elsewhere.bound_eq index hindex, ← h'.elsewhere.bound_eq index hindex]
  record key := by
    by_cases hkey : key = mac.text
    · subst hkey
      have hnext : w.next.toFinset = w'.next.toFinset :=
        List.toFinset.ext (h.attempts_perm h' hsame).2.2
      rw [h.record_after, h'.record_after]
      split
      · exact congrArg some hnext
      · rfl
    · rw [← h.elsewhere.record_eq key hkey, ← h'.elsewhere.record_eq key hkey]

end Foreseen

/-- Visits of interfaces that are declared with the same addresses count the same, and leave the
same addresses bound and recorded. -/
theorem run_sameAddresses {d d' : DeclaredInterface} (h : d.SameAddresses d')
    (live : List LiveInterface) (m : Machine MemoryHost L) :
    Report.add {} ((run live d).run m).1 = Report.add {} ((run live d').run m).1 ∧
      ((run live d).run m).2.Compare (fun found found' => found.toFinset = found'.toFinset)
        (fun r r' => r.map List.toFinset = r'.map List.toFinset) ((run live d').run m).2 := by
  obtain ⟨mac, declared⟩ := d
  obtain ⟨mac', declared'⟩ := d'
  obtain ⟨rfl, hsame⟩ : mac = mac' ∧ ∀ ip, ip ∈ declared ↔ ip ∈ declared' := ⟨h.mac_eq, h.mem_iff⟩
  rcases run_of_mac live mac m with ⟨v, m', hrun⟩ |
    ⟨found, iface, bound, recorded, m', hrecorded, hrun⟩
  · rw [hrun, hrun]
    exact ⟨rfl, fun _ => rfl, fun _ => rfl⟩
  · rw [hrun, hrun]
    have hforeseen : Foreseen m' found iface bound recorded declared _ _ := foreseen hrecorded rfl
    have hforeseen' : Foreseen m' found iface bound recorded declared' _ _ :=
      foreseen hrecorded rfl
    exact ⟨hforeseen.report_eq hforeseen' hsame, hforeseen.compare hforeseen' hsame⟩

end Fixed
end Visit
end ForwardedIp
