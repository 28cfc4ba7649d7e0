import ForwardedIp.Proofs.Independence
import ForwardedIp.Proofs.ReliableVisits
/-!
# Machines on which the same fails all the time

A host in memory has a fixed set of operations that fail. With a ledger whose failures are fixed
too, a visit looks at the record of one hardware address and at what is bound at one index, and
leaves everything else as it was. So declared interfaces that have nothing to do with each other
can be visited in any order.
-/
namespace ForwardedIp

open RecordedLedger

/-- A ledger whose failures are fixed: what a read answers follows from what fails and from the
record, and what a write answers and whether it lands follow from what fails. -/
class FixedLedger (L : Type) [LedgerStore L] extends RecordedLedger L where
  Faults : Type
  faults : L → Faults
  lands : Faults → String → Bool
  read_faults (l : L) (key : String) : faults ((LedgerStore.read key).run l).2 = faults l
  write_faults (l : L) (key : String) (ips : List String) :
    faults ((LedgerStore.write key ips).run l).2 = faults l
  read_congr {l l' : L} {key : String} : faults l = faults l' → record l key = record l' key →
    ((LedgerStore.read key).run l).1 = ((LedgerStore.read key).run l').1
  write_congr {l l' : L} (key : String) (ips ips' : List String) : faults l = faults l' →
    ((LedgerStore.write key ips).run l).1 = ((LedgerStore.write key ips').run l').1
  write_record (l : L) (key : String) (ips : List String) :
    record ((LedgerStore.write key ips).run l).2 key =
      if lands (faults l) key then some ips else record l key

instance : FixedLedger MemoryLedger where
  Faults := Unit
  faults _ := ()
  lands _ _ := true
  read_faults _ _ := rfl
  write_faults _ _ _ := rfl
  read_congr _ hrecord := congrArg Except.ok hrecord
  write_congr _ _ _ _ := rfl
  write_record l key ips := l.get?_put_self key ips

instance {L : Type} [LedgerStore L] [FixedLedger L] : FixedLedger (SwitchedLedger L) where
  Faults := ReadSwitch × Bool × FixedLedger.Faults L
  faults s := (s.reading, s.writeFails, FixedLedger.faults s.store)
  lands faults key := !faults.2.1 && FixedLedger.lands faults.2.2 key
  read_faults := by
    rintro ⟨store, reading, writeFails⟩ key
    cases reading with
    | works => exact congrArg (fun faults => (_, _, faults)) (FixedLedger.read_faults store key)
    | fails => rfl
    | findsNothing => rfl
  write_faults := by
    rintro ⟨store, reading, writeFails⟩ key ips
    cases writeFails with
    | false => exact congrArg (fun faults => (_, _, faults)) (FixedLedger.write_faults store key ips)
    | true => rfl
  read_congr := by
    rintro ⟨store, reading, writeFails⟩ ⟨store', reading', writeFails'⟩ key hfaults hrecord
    obtain ⟨rfl, -, hstore⟩ : reading = reading' ∧ writeFails = writeFails' ∧ _ := by
      simpa only [Prod.mk.injEq] using hfaults
    cases reading with
    | works => exact FixedLedger.read_congr (L := L) hstore hrecord
    | fails => rfl
    | findsNothing => rfl
  write_congr := by
    rintro ⟨store, reading, writeFails⟩ ⟨store', reading', writeFails'⟩ key ips ips' hfaults
    obtain ⟨-, rfl, hstore⟩ : reading = reading' ∧ writeFails = writeFails' ∧ _ := by
      simpa only [Prod.mk.injEq] using hfaults
    cases writeFails with
    | false => exact FixedLedger.write_congr (L := L) key ips ips' hstore
    | true => rfl
  write_record := by
    rintro ⟨store, reading, writeFails⟩ key ips
    cases writeFails with
    | false => exact FixedLedger.write_record store key ips
    | true => rfl

namespace Machine

theorem run_onHost {H L α : Type} {action : StateM H α} {m : Machine H L} {a : α} {host : H}
    (h : action.run m.host = (a, host)) : (onHost action).run m = (a, { m with host }) :=
  congrArg (fun r : α × H => (r.1, (⟨r.2, m.ledger⟩ : Machine H L))) h

section Host
variable {L : Type} [LedgerStore L]

theorem run_siteBind (iface : LiveInterface) (ip : IpAddr) (k : Nat) (m : Machine MemoryHost L) :
    (Site.bind iface ip k).run m = if m.host.faults.unbindable.contains ip then
        (.error (.backend ("cannot add " ++ ip.text)), m)
      else (.ok (), { m with host := m.host.append iface.index ⟨ip, k⟩ }) := by
  by_cases hfault : m.host.faults.unbindable.contains ip = true
  · rw [if_pos hfault]
    exact run_onHost (if_pos hfault)
  · rw [if_neg hfault]
    exact run_onHost (if_neg hfault)

theorem run_siteUnbind (iface : LiveInterface) (ip : IpAddr) (m : Machine MemoryHost L) :
    (Site.unbind iface ip).run m = if m.host.faults.unremovable.contains ip then
        (.error (.backend ("cannot remove " ++ ip.text)), m)
      else (.ok (), { m with host := m.host.dropIp iface.index ip }) := by
  by_cases hfault : m.host.faults.unremovable.contains ip = true
  · rw [if_pos hfault]
    exact run_onHost (if_pos hfault)
  · rw [if_neg hfault]
    exact run_onHost (if_neg hfault)

end Host

variable {L : Type} [LedgerStore L] [FixedLedger L]

/-- On two machines the same fails, the same is recorded under some keys, and the same is bound at
some indexes. -/
structure Agree (keys : String → Prop) (indexes : Nat → Prop) (m m' : Machine MemoryHost L) :
    Prop where
  host_faults : m.host.faults = m'.host.faults
  ledger_faults : FixedLedger.faults m.ledger = FixedLedger.faults m'.ledger
  record_eq : ∀ key, keys key → record m.ledger key = record m'.ledger key
  bound_eq : ∀ index, indexes index → m.host.addressesAt index = m'.host.addressesAt index

variable {keys : String → Prop} {indexes : Nat → Prop}

theorem agree_equivalence : Equivalence (Agree (L := L) keys indexes) where
  refl _ := ⟨rfl, rfl, fun _ _ => rfl, fun _ _ => rfl⟩
  symm h := ⟨h.host_faults.symm, h.ledger_faults.symm, fun key hkey => (h.record_eq key hkey).symm,
    fun index hindex => (h.bound_eq index hindex).symm⟩
  trans h h' := ⟨h.host_faults.trans h'.host_faults, h.ledger_faults.trans h'.ledger_faults,
    fun key hkey => (h.record_eq key hkey).trans (h'.record_eq key hkey),
    fun index hindex => (h.bound_eq index hindex).trans (h'.bound_eq index hindex)⟩

/-- Two machines compare in what is bound at every index and in every record. -/
structure Compare (P : List LiveAddress → List LiveAddress → Prop)
    (Q : Option (List String) → Option (List String) → Prop) (m m' : Machine MemoryHost L) :
    Prop where
  bound : ∀ index, P (m.host.addressesAt index) (m'.host.addressesAt index)
  record : ∀ key, Q (record m.ledger key) (record m'.ledger key)

section Host
variable {iface : LiveInterface}

theorem leaves_addresses : Leaves (Agree (L := L) keys indexes) (Site.addresses iface) :=
  fun m => agree_equivalence.refl m

theorem looksAt_addresses (hindex : indexes iface.index) :
    LooksAt (Agree (L := L) keys indexes) (Site.addresses iface) := by
  refine leaves_addresses.looksAt agree_equivalence fun {m m'} h => ?_
  have hanswer (m : Machine MemoryHost L) : ((Site.addresses iface).run m).1 =
      if m.host.faults.unreadable.contains iface.index then
        .error (.backend "address read failed") else .ok (m.host.addressesAt iface.index) := rfl
  rw [hanswer, hanswer, h.host_faults, h.bound_eq iface.index hindex]

/-- A change of what is bound at an index that depends on what is bound there. -/
theorem Agree.setAddresses {m m' : Machine MemoryHost L} (h : Agree keys indexes m m')
    (index : Nat) (change : List LiveAddress → List LiveAddress) :
    Agree keys indexes
      { m with host := m.host.setAddresses index (change (m.host.addressesAt index)) }
      { m' with host := m'.host.setAddresses index (change (m'.host.addressesAt index)) } where
  host_faults := h.host_faults
  ledger_faults := h.ledger_faults
  record_eq := h.record_eq
  bound_eq other hother := by
    by_cases hindex : other = index
    · subst hindex
      rw [MemoryHost.addressesAt_setAddresses, MemoryHost.addressesAt_setAddresses,
        h.bound_eq other hother]
    · rw [MemoryHost.addressesAt_setAddresses_of_ne hindex,
        MemoryHost.addressesAt_setAddresses_of_ne hindex, h.bound_eq other hother]

theorem agree_setAddresses {index : Nat} (hindex : ¬indexes index) (m : Machine MemoryHost L)
    (addresses : List LiveAddress) :
    Agree keys indexes m { m with host := m.host.setAddresses index addresses } where
  host_faults := rfl
  ledger_faults := rfl
  record_eq _ _ := rfl
  bound_eq other hother := by
    have hne : other ≠ index := by
      rintro rfl
      exact hindex hother
    exact (MemoryHost.addressesAt_setAddresses_of_ne hne m.host addresses).symm

theorem looksAt_bind (ip : IpAddr) (k : Nat) :
    LooksAt (Agree (L := L) keys indexes) (Site.bind iface ip k) := by
  intro m m' h
  rw [run_siteBind, run_siteBind, h.host_faults]
  split
  · exact ⟨rfl, h⟩
  · exact ⟨rfl, h.setAddresses iface.index (· ++ [LiveAddress.mk ip k])⟩

theorem looksAt_unbind (ip : IpAddr) :
    LooksAt (Agree (L := L) keys indexes) (Site.unbind iface ip) := by
  intro m m' h
  rw [run_siteUnbind, run_siteUnbind, h.host_faults]
  split
  · exact ⟨rfl, h⟩
  · exact ⟨rfl, h.setAddresses iface.index (List.filter (·.ip ≠ ip))⟩

theorem leaves_bind (hindex : ¬indexes iface.index) (ip : IpAddr) (k : Nat) :
    Leaves (Agree (L := L) keys indexes) (Site.bind iface ip k) := by
  intro m
  rw [run_siteBind]
  split
  · exact agree_equivalence.refl m
  · exact agree_setAddresses hindex m _

theorem leaves_unbind (hindex : ¬indexes iface.index) (ip : IpAddr) :
    Leaves (Agree (L := L) keys indexes) (Site.unbind iface ip) := by
  intro m
  rw [run_siteUnbind]
  split
  · exact agree_equivalence.refl m
  · exact agree_setAddresses hindex m _

end Host

section Records
variable {key : String}

theorem leaves_read : Leaves (Agree (L := L) keys indexes) (Site.readRecord key) := by
  intro m
  have hkeeps : record ((LedgerStore.read key).run m.ledger).2 = record m.ledger := read_keeps rfl
  exact ⟨rfl, (FixedLedger.read_faults m.ledger key).symm,
    fun other _ => (congrFun hkeeps other).symm, fun _ _ => rfl⟩

theorem looksAt_read (hkey : keys key) :
    LooksAt (Agree (L := L) keys indexes) (Site.readRecord key) :=
  leaves_read.looksAt agree_equivalence fun h =>
    FixedLedger.read_congr h.ledger_faults (h.record_eq key hkey)

theorem leaves_write (hkey : ¬keys key) (ips : List String) :
    Leaves (Agree (L := L) keys indexes) (Site.writeRecord key ips) := by
  intro m
  refine ⟨rfl, (FixedLedger.write_faults m.ledger key ips).symm, fun other hother => ?_,
    fun _ _ => rfl⟩
  have hne : other ≠ key := by
    rintro rfl
    exact hkey hother
  have helsewhere : record ((LedgerStore.write key ips).run m.ledger).2 other =
      record m.ledger other := write_other rfl hne
  exact helsewhere.symm

theorem looksAt_write (ips : List String) :
    LooksAt (Agree (L := L) keys indexes) (Site.writeRecord key ips) := by
  intro m m' h
  refine ⟨FixedLedger.write_congr key ips ips h.ledger_faults, h.host_faults, ?_, ?_, h.bound_eq⟩
  · exact (FixedLedger.write_faults m.ledger key ips).trans
      (h.ledger_faults.trans (FixedLedger.write_faults m'.ledger key ips).symm)
  · intro other hother
    have helsewhere (l : L) : other ≠ key →
        record ((LedgerStore.write key ips).run l).2 other = record l other := write_other rfl
    change record ((LedgerStore.write key ips).run m.ledger).2 other =
      record ((LedgerStore.write key ips).run m'.ledger).2 other
    by_cases hkey : other = key
    · subst hkey
      rw [FixedLedger.write_record, FixedLedger.write_record, h.ledger_faults,
        h.record_eq other hother]
    · rw [helsewhere m.ledger hkey, helsewhere m'.ledger hkey, h.record_eq other hother]

end Records
end Machine

namespace Visit
open Machine
variable {L : Type} [LedgerStore L] [FixedLedger L] {keys : String → Prop} {indexes : Nat → Prop}
  {mac : Mac} {iface : LiveInterface} {live : List LiveInterface} {d : DeclaredInterface}

theorem looksAt_bindText (iface : LiveInterface) (text : String) :
    LooksAt (Agree (L := L) keys indexes) (bindText iface text) := by
  unfold bindText
  split
  · exact (looksAt_bind _ _).bind fun answer => looksAt_pure _
  · exact looksAt_pure _

theorem looksAt_unbindText (iface : LiveInterface) (text : String) :
    LooksAt (Agree (L := L) keys indexes) (unbindText iface text) := by
  unfold unbindText
  split
  · exact (looksAt_unbind _).bind fun answer => looksAt_pure _
  · exact looksAt_pure _

theorem leaves_bindText (hindex : ¬indexes iface.index) (text : String) :
    Leaves (Agree (L := L) keys indexes) (bindText iface text) := by
  unfold bindText
  split
  · exact (leaves_bind hindex _ _).bind agree_equivalence fun answer =>
      leaves_pure agree_equivalence _
  · exact leaves_pure agree_equivalence _

theorem leaves_unbindText (hindex : ¬indexes iface.index) (text : String) :
    Leaves (Agree (L := L) keys indexes) (unbindText iface text) := by
  unfold unbindText
  split
  · exact (leaves_unbind hindex _).bind agree_equivalence fun answer =>
      leaves_pure agree_equivalence _
  · exact leaves_pure agree_equivalence _

theorem looksAt_carryOut (mac : Mac) (iface : LiveInterface)
    (bound recorded declared : List String) :
    LooksAt (Agree (L := L) keys indexes) (carryOut mac iface bound recorded declared) :=
  (LooksAt.mapM (looksAt_bindText iface) _).bind fun _ =>
    (LooksAt.mapM (looksAt_unbindText iface) _).bind fun _ =>
      (looksAt_write _).bind fun _ => looksAt_pure _

theorem leaves_carryOut (hkey : ¬keys mac.text) (hindex : ¬indexes iface.index)
    (bound recorded declared : List String) :
    Leaves (Agree (L := L) keys indexes) (carryOut mac iface bound recorded declared) :=
  (Leaves.mapM agree_equivalence fun text _ => leaves_bindText hindex text).bind agree_equivalence
    fun _ => (Leaves.mapM agree_equivalence fun text _ => leaves_unbindText hindex text).bind
      agree_equivalence fun _ => (leaves_write hkey _).bind agree_equivalence
        fun _ => leaves_pure agree_equivalence _

theorem looksAt_recallOwned (hkey : keys mac.text) :
    LooksAt (Agree (L := L) keys indexes) (recallOwned mac) := by
  refine (looksAt_read hkey).bind fun answer => ?_
  split <;> exact looksAt_pure _

theorem leaves_recallOwned (mac : Mac) : Leaves (Agree (L := L) keys indexes) (recallOwned mac) := by
  refine leaves_read.bind agree_equivalence fun answer => ?_
  split <;> exact leaves_pure agree_equivalence _

/-- A visit looks at what is recorded and bound for its interface. -/
theorem looksAt_run
    (hown : ∀ mac iface, d.MatchedBy live mac iface → keys mac.text ∧ indexes iface.index) :
    LooksAt (Agree (L := L) keys indexes) (run live d) := by
  unfold run
  cases hmac : Mac.parse? d.mac with
  | none => exact looksAt_pure _
  | some mac =>
    simp only
    cases hmatch : matching? live mac with
    | none => exact looksAt_pure _
    | some iface =>
      obtain ⟨hkey, hindex⟩ := hown mac iface ⟨hmac, hmatch⟩
      refine (looksAt_addresses hindex).bind fun found => ?_
      split
      · exact looksAt_pure _
      · refine (looksAt_recallOwned hkey).bind fun owned => ?_
        split
        · exact looksAt_pure _
        · exact (looksAt_carryOut _ _ _ _ _).bind fun w => looksAt_pure _

/-- A visit leaves alone what is recorded and bound for other interfaces. -/
theorem leaves_run
    (hother : ∀ mac iface, d.MatchedBy live mac iface → ¬keys mac.text ∧ ¬indexes iface.index) :
    Leaves (Agree (L := L) keys indexes) (run live d) := by
  unfold run
  cases hmac : Mac.parse? d.mac with
  | none => exact leaves_pure agree_equivalence _
  | some mac =>
    simp only
    cases hmatch : matching? live mac with
    | none => exact leaves_pure agree_equivalence _
    | some iface =>
      obtain ⟨hkey, hindex⟩ := hother mac iface ⟨hmac, hmatch⟩
      refine leaves_addresses.bind agree_equivalence fun found => ?_
      split
      · exact leaves_pure agree_equivalence _
      · refine (leaves_recallOwned mac).bind agree_equivalence fun owned => ?_
        split
        · exact leaves_pure agree_equivalence _
        · exact (leaves_carryOut hkey hindex _ _ _).bind agree_equivalence
            fun w => leaves_pure agree_equivalence _

end Visit
end ForwardedIp
