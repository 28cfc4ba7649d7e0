import ForwardedIp.Host.Memory
import ForwardedIp.Ledger.Memory
import ForwardedIp.Ledger.Switched
import ForwardedIp.Proofs.Basics
import ForwardedIp.Reconciler.Site
/-!
# Laws of sites

What the theory of the reconciler asks of the place where it works. Every operation may fail at
any time, and nothing is said about when. A recorded site keeps a ledger that only its own writes
change. A site in memory also has a host on which an operation that succeeds has its effect and one
that fails has none. The switched ledgers and the host in memory obey these laws, and noting the
calls breaks none of them.
-/
namespace ForwardedIp

/-- A ledger whose records only its writes change: a read that answers tells the record, a write
that succeeds replaces it, and a write that fails leaves the old record or the new one. -/
class RecordedLedger (L : Type) [LedgerStore L] where
  record : L → String → Option (List String)
  read_keeps {l l' : L} {key : String} {a : Except Fault (Option (List String))} :
    (LedgerStore.read key).run l = (a, l') → record l' = record l
  read_ok {l l' : L} {key : String} {r : Option (List String)} :
    (LedgerStore.read key).run l = (.ok r, l') → r = record l key
  write_ok {l l' : L} {key : String} {ips : List String} :
    (LedgerStore.write key ips).run l = (.ok (), l') → record l' key = some ips
  write_error {l l' : L} {key : String} {ips : List String} {f : Fault} :
    (LedgerStore.write key ips).run l = (.error f, l') →
      record l' key = record l key ∨ record l' key = some ips
  write_other {l l' : L} {key other : String} {ips : List String} {a : Except Fault Unit} :
    (LedgerStore.write key ips).run l = (a, l') → other ≠ key → record l' other = record l other

instance : RecordedLedger MemoryLedger where
  record := MemoryLedger.get?
  read_keeps := by rintro l l' key a ⟨⟩; rfl
  read_ok := by rintro l l' key r ⟨⟩; rfl
  write_ok := by rintro l l' key ips ⟨⟩; exact l.get?_put_self key ips
  write_error := by rintro l l' key ips f ⟨⟩
  write_other := by rintro l l' key other ips a ⟨⟩ hne; exact MemoryLedger.get?_put_of_ne hne l ips

namespace SwitchedLedger
variable {L α : Type}

theorem inside_run {action : StateM L α} {s s' : SwitchedLedger L} {a : α}
    (h : (inside action).run s = (a, s')) :
    ∃ l, action.run s.store = (a, l) ∧ s' = { s with store := l } := by
  injection h with ha hs
  exact ⟨_, Prod.ext ha rfl, hs.symm⟩

variable [LedgerStore L]

theorem read_run {key : String} {s s' : SwitchedLedger L}
    {a : Except Fault (Option (List String))} (h : (LedgerStore.read key).run s = (a, s')) :
    (∃ f, a = .error f ∧ s' = s) ∨ (inside (LedgerStore.read key)).run s = (a, s') := by
  obtain ⟨store, reading, writeFails⟩ := s
  cases reading with
  | works => exact .inr h
  | fails => cases h; exact .inl ⟨_, rfl, rfl⟩
  | findsNothing => cases h; exact .inl ⟨_, rfl, rfl⟩

theorem write_run {key : String} {ips : List String} {s s' : SwitchedLedger L}
    {a : Except Fault Unit} (h : (LedgerStore.write key ips).run s = (a, s')) :
    (∃ f, a = .error f ∧ s' = s) ∨ (inside (LedgerStore.write key ips)).run s = (a, s') := by
  obtain ⟨store, reading, writeFails⟩ := s
  cases writeFails with
  | false => exact .inr h
  | true => cases h; exact .inl ⟨_, rfl, rfl⟩

end SwitchedLedger

instance {L : Type} [LedgerStore L] [RecordedLedger L] : RecordedLedger (SwitchedLedger L) where
  record s := RecordedLedger.record s.store
  read_keeps := by
    intro s s' key a h
    rcases SwitchedLedger.read_run h with ⟨f, -, rfl⟩ | h
    · rfl
    · obtain ⟨l, hl, rfl⟩ := SwitchedLedger.inside_run h
      exact RecordedLedger.read_keeps hl
  read_ok := by
    intro s s' key r h
    rcases SwitchedLedger.read_run h with ⟨f, hf, -⟩ | h
    · cases hf
    · obtain ⟨l, hl, -⟩ := SwitchedLedger.inside_run h
      exact RecordedLedger.read_ok hl
  write_ok := by
    intro s s' key ips h
    rcases SwitchedLedger.write_run h with ⟨f, hf, -⟩ | h
    · cases hf
    · obtain ⟨l, hl, rfl⟩ := SwitchedLedger.inside_run h
      exact RecordedLedger.write_ok hl
  write_error := by
    intro s s' key ips f h
    rcases SwitchedLedger.write_run h with ⟨-, -, rfl⟩ | h
    · exact .inl rfl
    · obtain ⟨l, hl, rfl⟩ := SwitchedLedger.inside_run h
      exact RecordedLedger.write_error hl
  write_other := by
    intro s s' key other ips a h hne
    rcases SwitchedLedger.write_run h with ⟨f, -, rfl⟩ | h
    · rfl
    · obtain ⟨l, hl, rfl⟩ := SwitchedLedger.inside_run h
      exact RecordedLedger.write_other hl hne

/-- A host with a ledger whose records only its own writes change. -/
class RecordedSite (N : Type) [Site N] where
  record : N → String → Option (List String)
  interfaces_record {n n' : N} {a : Except Fault (List LiveInterface)} :
    Site.interfaces.run n = (a, n') → record n' = record n
  addresses_record {n n' : N} {iface : LiveInterface} {a : Except Fault (List LiveAddress)} :
    (Site.addresses iface).run n = (a, n') → record n' = record n
  bind_record {n n' : N} {iface : LiveInterface} {ip : IpAddr} {k : Nat} {a : Except Fault Unit} :
    (Site.bind iface ip k).run n = (a, n') → record n' = record n
  unbind_record {n n' : N} {iface : LiveInterface} {ip : IpAddr} {a : Except Fault Unit} :
    (Site.unbind iface ip).run n = (a, n') → record n' = record n
  read_record {n n' : N} {key : String} {a : Except Fault (Option (List String))} :
    (Site.readRecord key).run n = (a, n') → record n' = record n
  read_ok {n n' : N} {key : String} {r : Option (List String)} :
    (Site.readRecord key).run n = (.ok r, n') → r = record n key
  write_ok {n n' : N} {key : String} {ips : List String} :
    (Site.writeRecord key ips).run n = (.ok (), n') → record n' key = some ips
  write_error {n n' : N} {key : String} {ips : List String} {f : Fault} :
    (Site.writeRecord key ips).run n = (.error f, n') →
      record n' key = record n key ∨ record n' key = some ips
  write_other {n n' : N} {key other : String} {ips : List String} {a : Except Fault Unit} :
    (Site.writeRecord key ips).run n = (a, n') → other ≠ key → record n' other = record n other

/-- A recorded site whose host is in memory: what is bound changes by an operation that succeeds
and by nothing else. Binding appends, unbinding drops every address with the IP. -/
class MemorySite (N : Type) [Site N] extends RecordedSite N where
  listed : N → List LiveInterface
  bound : N → Nat → List LiveAddress
  interfaces_ok {n n' : N} {live : List LiveInterface} :
    Site.interfaces.run n = (.ok live, n') → live = listed n
  interfaces_host {n n' : N} {a : Except Fault (List LiveInterface)} :
    Site.interfaces.run n = (a, n') → listed n' = listed n ∧ bound n' = bound n
  addresses_ok {n n' : N} {iface : LiveInterface} {as : List LiveAddress} :
    (Site.addresses iface).run n = (.ok as, n') → as = bound n iface.index
  addresses_host {n n' : N} {iface : LiveInterface} {a : Except Fault (List LiveAddress)} :
    (Site.addresses iface).run n = (a, n') → listed n' = listed n ∧ bound n' = bound n
  bind_listed {n n' : N} {iface : LiveInterface} {ip : IpAddr} {k : Nat} {a : Except Fault Unit} :
    (Site.bind iface ip k).run n = (a, n') → listed n' = listed n
  bind_ok {n n' : N} {iface : LiveInterface} {ip : IpAddr} {k : Nat} :
    (Site.bind iface ip k).run n = (.ok (), n') →
      bound n' iface.index = bound n iface.index ++ [⟨ip, k⟩]
  bind_error {n n' : N} {iface : LiveInterface} {ip : IpAddr} {k : Nat} {f : Fault} :
    (Site.bind iface ip k).run n = (.error f, n') → bound n' iface.index = bound n iface.index
  bind_other {n n' : N} {iface : LiveInterface} {ip : IpAddr} {k other : Nat}
    {a : Except Fault Unit} : (Site.bind iface ip k).run n = (a, n') → other ≠ iface.index →
      bound n' other = bound n other
  unbind_listed {n n' : N} {iface : LiveInterface} {ip : IpAddr} {a : Except Fault Unit} :
    (Site.unbind iface ip).run n = (a, n') → listed n' = listed n
  unbind_ok {n n' : N} {iface : LiveInterface} {ip : IpAddr} :
    (Site.unbind iface ip).run n = (.ok (), n') →
      bound n' iface.index = (bound n iface.index).filter (·.ip ≠ ip)
  unbind_error {n n' : N} {iface : LiveInterface} {ip : IpAddr} {f : Fault} :
    (Site.unbind iface ip).run n = (.error f, n') → bound n' iface.index = bound n iface.index
  unbind_other {n n' : N} {iface : LiveInterface} {ip : IpAddr} {other : Nat}
    {a : Except Fault Unit} : (Site.unbind iface ip).run n = (a, n') → other ≠ iface.index →
      bound n' other = bound n other
  read_host {n n' : N} {key : String} {a : Except Fault (Option (List String))} :
    (Site.readRecord key).run n = (a, n') → listed n' = listed n ∧ bound n' = bound n
  write_host {n n' : N} {key : String} {ips : List String} {a : Except Fault Unit} :
    (Site.writeRecord key ips).run n = (a, n') → listed n' = listed n ∧ bound n' = bound n

namespace Machine
variable {H L α : Type}

theorem onHost_run {action : StateM H α} {m m' : Machine H L} {a : α}
    (h : (onHost action).run m = (a, m')) :
    ∃ host, action.run m.host = (a, host) ∧ m' = { m with host } := by
  injection h with ha hm
  exact ⟨_, Prod.ext ha rfl, hm.symm⟩

theorem onLedger_run {action : StateM L α} {m m' : Machine H L} {a : α}
    (h : (onLedger action).run m = (a, m')) :
    ∃ ledger, action.run m.ledger = (a, ledger) ∧ m' = { m with ledger } := by
  injection h with ha hm
  exact ⟨_, Prod.ext ha rfl, hm.symm⟩

variable [LedgerStore L]

/-- Whatever the host does, a machine keeps the records of its ledger. -/
instance [HostBackend H] [RecordedLedger L] : RecordedSite (Machine H L) where
  record m := RecordedLedger.record m.ledger
  interfaces_record := by intro n n' a h; obtain ⟨host, -, rfl⟩ := onHost_run h; rfl
  addresses_record := by intro n n' iface a h; obtain ⟨host, -, rfl⟩ := onHost_run h; rfl
  bind_record := by intro n n' iface ip k a h; obtain ⟨host, -, rfl⟩ := onHost_run h; rfl
  unbind_record := by intro n n' iface ip a h; obtain ⟨host, -, rfl⟩ := onHost_run h; rfl
  read_record := by
    intro n n' key a h
    obtain ⟨ledger, hl, rfl⟩ := onLedger_run h
    exact RecordedLedger.read_keeps hl
  read_ok := by
    intro n n' key r h
    obtain ⟨ledger, hl, -⟩ := onLedger_run h
    exact RecordedLedger.read_ok hl
  write_ok := by
    intro n n' key ips h
    obtain ⟨ledger, hl, rfl⟩ := onLedger_run h
    exact RecordedLedger.write_ok hl
  write_error := by
    intro n n' key ips f h
    obtain ⟨ledger, hl, rfl⟩ := onLedger_run h
    exact RecordedLedger.write_error hl
  write_other := by
    intro n n' key other ips a h hne
    obtain ⟨ledger, hl, rfl⟩ := onLedger_run h
    exact RecordedLedger.write_other hl hne

end Machine

namespace MemoryHost

theorem bind_run {iface : LiveInterface} {ip : IpAddr} {k : Nat} {h h' : MemoryHost}
    {a : Except Fault Unit} (hrun : (HostBackend.bind iface ip k).run h = (a, h')) :
    (∃ f, a = .error f ∧ h' = h) ∨ (a = .ok () ∧ h' = h.append iface.index ⟨ip, k⟩) := by
  by_cases hf : h.faults.unbindable.contains ip = true
  · have heq : (HostBackend.bind iface ip k).run h =
        (.error (.backend ("cannot add " ++ ip.text)), h) := if_pos hf
    rw [heq] at hrun
    cases hrun
    exact .inl ⟨_, rfl, rfl⟩
  · have heq : (HostBackend.bind iface ip k).run h =
        (.ok (), h.append iface.index ⟨ip, k⟩) := if_neg hf
    rw [heq] at hrun
    cases hrun
    exact .inr ⟨rfl, rfl⟩

theorem unbind_run {iface : LiveInterface} {ip : IpAddr} {h h' : MemoryHost}
    {a : Except Fault Unit} (hrun : (HostBackend.unbind iface ip).run h = (a, h')) :
    (∃ f, a = .error f ∧ h' = h) ∨ (a = .ok () ∧ h' = h.dropIp iface.index ip) := by
  by_cases hf : h.faults.unremovable.contains ip = true
  · have heq : (HostBackend.unbind iface ip).run h =
        (.error (.backend ("cannot remove " ++ ip.text)), h) := if_pos hf
    rw [heq] at hrun
    cases hrun
    exact .inl ⟨_, rfl, rfl⟩
  · have heq : (HostBackend.unbind iface ip).run h = (.ok (), h.dropIp iface.index ip) := if_neg hf
    rw [heq] at hrun
    cases hrun
    exact .inr ⟨rfl, rfl⟩

theorem interfaces_run {h h' : MemoryHost} {a : Except Fault (List LiveInterface)}
    (hrun : HostBackend.interfaces.run h = (a, h')) :
    h' = h ∧ ((∃ f, a = .error f) ∨ a = .ok h.interfaces) := by
  obtain ⟨ha, rfl⟩ := Prod.mk.inj hrun
  refine ⟨rfl, ?_⟩
  rw [← ha]
  split
  · exact .inl ⟨_, rfl⟩
  · exact .inr rfl

theorem addresses_run {iface : LiveInterface} {h h' : MemoryHost}
    {a : Except Fault (List LiveAddress)}
    (hrun : (HostBackend.addresses iface).run h = (a, h')) :
    h' = h ∧ ((∃ f, a = .error f) ∨ a = .ok (h.addressesAt iface.index)) := by
  obtain ⟨ha, rfl⟩ := Prod.mk.inj hrun
  refine ⟨rfl, ?_⟩
  rw [← ha]
  split
  · exact .inl ⟨_, rfl⟩
  · exact .inr rfl

end MemoryHost

/-- A machine with a host in memory, over any recorded ledger. -/
instance {L : Type} [LedgerStore L] [RecordedLedger L] : MemorySite (Machine MemoryHost L) where
  listed m := m.host.interfaces
  bound m := m.host.addressesAt
  interfaces_ok := by
    intro n n' live h
    obtain ⟨host, hh, -⟩ := Machine.onHost_run h
    rcases MemoryHost.interfaces_run hh with ⟨-, ⟨f, hf⟩ | hok⟩
    · cases hf
    · exact Except.ok.inj hok
  interfaces_host := by
    intro n n' a h
    obtain ⟨host, hh, rfl⟩ := Machine.onHost_run h
    obtain ⟨rfl, -⟩ := MemoryHost.interfaces_run hh
    exact ⟨rfl, rfl⟩
  addresses_ok := by
    intro n n' iface as h
    obtain ⟨host, hh, -⟩ := Machine.onHost_run h
    rcases MemoryHost.addresses_run hh with ⟨-, ⟨f, hf⟩ | hok⟩
    · cases hf
    · exact Except.ok.inj hok
  addresses_host := by
    intro n n' iface a h
    obtain ⟨host, hh, rfl⟩ := Machine.onHost_run h
    obtain ⟨rfl, -⟩ := MemoryHost.addresses_run hh
    exact ⟨rfl, rfl⟩
  bind_listed := by
    intro n n' iface ip k a h
    obtain ⟨host, hh, rfl⟩ := Machine.onHost_run h
    rcases MemoryHost.bind_run hh with ⟨f, -, rfl⟩ | ⟨-, rfl⟩ <;> rfl
  bind_ok := by
    intro n n' iface ip k h
    obtain ⟨host, hh, rfl⟩ := Machine.onHost_run h
    rcases MemoryHost.bind_run hh with ⟨f, hf, -⟩ | ⟨-, rfl⟩
    · cases hf
    · exact MemoryHost.addressesAt_setAddresses _ _ _
  bind_error := by
    intro n n' iface ip k f h
    obtain ⟨host, hh, rfl⟩ := Machine.onHost_run h
    rcases MemoryHost.bind_run hh with ⟨f, -, rfl⟩ | ⟨hf, -⟩
    · rfl
    · cases hf
  bind_other := by
    intro n n' iface ip k other a h hne
    obtain ⟨host, hh, rfl⟩ := Machine.onHost_run h
    rcases MemoryHost.bind_run hh with ⟨f, -, rfl⟩ | ⟨-, rfl⟩
    · rfl
    · exact MemoryHost.addressesAt_setAddresses_of_ne hne _ _
  unbind_listed := by
    intro n n' iface ip a h
    obtain ⟨host, hh, rfl⟩ := Machine.onHost_run h
    rcases MemoryHost.unbind_run hh with ⟨f, -, rfl⟩ | ⟨-, rfl⟩ <;> rfl
  unbind_ok := by
    intro n n' iface ip h
    obtain ⟨host, hh, rfl⟩ := Machine.onHost_run h
    rcases MemoryHost.unbind_run hh with ⟨f, hf, -⟩ | ⟨-, rfl⟩
    · cases hf
    · exact MemoryHost.addressesAt_setAddresses _ _ _
  unbind_error := by
    intro n n' iface ip f h
    obtain ⟨host, hh, rfl⟩ := Machine.onHost_run h
    rcases MemoryHost.unbind_run hh with ⟨f, -, rfl⟩ | ⟨hf, -⟩
    · rfl
    · cases hf
  unbind_other := by
    intro n n' iface ip other a h hne
    obtain ⟨host, hh, rfl⟩ := Machine.onHost_run h
    rcases MemoryHost.unbind_run hh with ⟨f, -, rfl⟩ | ⟨-, rfl⟩
    · rfl
    · exact MemoryHost.addressesAt_setAddresses_of_ne hne _ _
  read_host := by
    intro n n' key a h
    obtain ⟨ledger, -, rfl⟩ := Machine.onLedger_run h
    exact ⟨rfl, rfl⟩
  write_host := by
    intro n n' key ips a h
    obtain ⟨ledger, -, rfl⟩ := Machine.onLedger_run h
    exact ⟨rfl, rfl⟩

namespace Machine

/-- A machine in memory with one interface, what is bound there and what is recorded for it. -/
def single (mac : String) (bound : List LiveAddress) (recorded : List String) :
    Machine MemoryHost MemoryLedger where
  host := { interfaces := [⟨"eth0", 2, Mac.parse? mac⟩], bound := [(2, bound)] }
  ledger := ⟨[(mac, recorded)]⟩

/-- The address 10.0.0.5. -/
def tenFive : IpAddr := .v4 ⟨[10, 0, 0, 5], rfl⟩

/-- The address 10.0.0.6. -/
def tenSix : IpAddr := .v4 ⟨[10, 0, 0, 6], rfl⟩

end Machine

namespace Observed
variable {N α : Type}

theorem noting_run {action : StateM N α} {call : α → Call} {o o' : Observed N} {a : α}
    (h : (noting action call).run o = (a, o')) :
    action.run o.site = (a, o'.site) ∧ o'.calls = o.calls ++ [call a] := by
  injection h with ha ho
  subst ho
  exact ⟨Prod.ext ha rfl, by rw [← ha]⟩

variable [Site N]

/-- Noting the calls of a recorded site keeps its records. -/
instance [RecordedSite N] : RecordedSite (Observed N) where
  record o := RecordedSite.record o.site
  interfaces_record h := RecordedSite.interfaces_record (noting_run h).1
  addresses_record h := RecordedSite.addresses_record (noting_run h).1
  bind_record h := RecordedSite.bind_record (noting_run h).1
  unbind_record h := RecordedSite.unbind_record (noting_run h).1
  read_record h := RecordedSite.read_record (noting_run h).1
  read_ok h := RecordedSite.read_ok (noting_run h).1
  write_ok h := RecordedSite.write_ok (noting_run h).1
  write_error h := RecordedSite.write_error (noting_run h).1
  write_other h hne := RecordedSite.write_other (noting_run h).1 hne

/-- Noting the calls of a site in memory leaves its host in memory. -/
instance [MemorySite N] : MemorySite (Observed N) where
  listed o := MemorySite.listed o.site
  bound o := MemorySite.bound o.site
  interfaces_ok h := MemorySite.interfaces_ok (noting_run h).1
  interfaces_host h := MemorySite.interfaces_host (noting_run h).1
  addresses_ok h := MemorySite.addresses_ok (noting_run h).1
  addresses_host h := MemorySite.addresses_host (noting_run h).1
  bind_listed h := MemorySite.bind_listed (noting_run h).1
  bind_ok h := MemorySite.bind_ok (noting_run h).1
  bind_error h := MemorySite.bind_error (noting_run h).1
  bind_other h hne := MemorySite.bind_other (noting_run h).1 hne
  unbind_listed h := MemorySite.unbind_listed (noting_run h).1
  unbind_ok h := MemorySite.unbind_ok (noting_run h).1
  unbind_error h := MemorySite.unbind_error (noting_run h).1
  unbind_other h hne := MemorySite.unbind_other (noting_run h).1 hne
  read_host h := MemorySite.read_host (noting_run h).1
  write_host h := MemorySite.write_host (noting_run h).1

end Observed

end ForwardedIp
