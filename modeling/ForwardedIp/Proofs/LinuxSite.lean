import ForwardedIp.Host.Netlink
import ForwardedIp.Proofs.SiteLaws
/-!
# What a Linux host asks its kernel

A kernel's tables change by the requests of a host and by nothing else. A host binds by asking for
a message at the end of the table. To unbind an IP it asks for the deletion of the first message of
the interface that has the IP, whatever its prefix length, or it asks for nothing.
-/
namespace ForwardedIp

namespace AddressMessage

/-- Whether a message belongs to an index and has an IP. -/
def isOf (index : Nat) (ip : IpAddr) (m : AddressMessage) : Bool :=
  m.index = index && m.toAddress?.any (·.ip = ip)

variable {m : AddressMessage} {index : Nat} {ip other : IpAddr}

theorem isOf_eq_true : m.isOf index ip = true ↔
    m.index = index ∧ m.toAddress? = some ⟨ip, m.prefixLen⟩ := by
  simp only [isOf, toAddress?, Bool.and_eq_true, decide_eq_true_eq]
  cases m.nears.getLast?.or m.plains.getLast? <;> simp

theorem isOf_eq_false_of_ne (h : m.isOf index ip = true) (hne : other ≠ ip) :
    m.isOf index other = false := by
  rw [Bool.eq_false_iff]
  intro hother
  have heq := (isOf_eq_true.mp h).2.symm.trans (isOf_eq_true.mp hother).2
  exact hne (congrArg LiveAddress.ip (Option.some.inj heq)).symm

end AddressMessage

namespace Kernel
variable {k k' : Kernel} {index : Nat} {ip other : IpAddr} {m : AddressMessage}
  {a : Except String Unit}

/-- The addresses bound at an index. -/
def addressesAt (k : Kernel) (index : Nat) : List LiveAddress :=
  (k.addresses.filter (·.index = index)).filterMap AddressMessage.toAddress?

/-- The first message of an index with an IP. -/
def first? (k : Kernel) (index : Nat) (ip : IpAddr) : Option AddressMessage :=
  k.addresses.find? (·.isOf index ip)

theorem isOf_of_first? (h : k.first? index ip = some m) : m.isOf index ip = true :=
  List.find?_some h

theorem first?_isSome {x : LiveAddress} (h : x ∈ k.addressesAt index) :
    (k.first? index x.ip).isSome = true := by
  obtain ⟨m, hm, haddress⟩ := List.mem_filterMap.mp h
  obtain ⟨hmem, hindex⟩ := List.mem_filter.mp hm
  rw [first?, List.find?_isSome]
  refine ⟨m, hmem, ?_⟩
  rw [AddressMessage.isOf, haddress, hindex]
  simp

theorem add_run {prefixLen : Nat} (h : (add index ip prefixLen).run k = (a, k')) :
    k'.links = k.links ∧ k'.requests = k.requests ++ [.add index ip prefixLen] ∧
      ∃ added, k'.addresses = k.addresses ++ added := by
  unfold add at h
  simp only [StateT.run] at h
  split at h
  · cases h
    exact ⟨rfl, rfl, [], (List.append_nil _).symm⟩
  · split at h
    · cases h
      exact ⟨rfl, rfl, [], (List.append_nil _).symm⟩
    · cases h
      exact ⟨rfl, rfl, _, rfl⟩

theorem delete_run (h : (delete m).run k = (a, k')) :
    k'.links = k.links ∧ k'.requests = k.requests ++ [.delete m] ∧
      (k'.addresses = k.addresses ∨ k'.addresses = k.addresses.erase m) := by
  unfold delete at h
  simp only [StateT.run] at h
  split at h
  · cases h
    exact ⟨rfl, rfl, .inl rfl⟩
  · split at h
    · cases h
      exact ⟨rfl, rfl, .inr rfl⟩
    · cases h
      exact ⟨rfl, rfl, .inl rfl⟩

theorem first?_append {added : List AddressMessage} (h : (k.first? index ip).isSome = true)
    (hadded : k'.addresses = k.addresses ++ added) : k'.first? index ip = k.first? index ip := by
  obtain ⟨m, hm⟩ := Option.isSome_iff_exists.mp h
  rw [first?, hadded, List.find?_append, ← first?, hm, Option.some_or]

theorem find?_erase_of_neg {p : AddressMessage → Bool} (hm : p m = false)
    (messages : List AddressMessage) : (messages.erase m).find? p = messages.find? p := by
  induction messages with
  | nil => rfl
  | cons m' messages ih =>
    by_cases heq : m' = m
    · subst heq
      rw [List.erase_cons_head, List.find?_cons_of_neg (by simp [hm])]
    · rw [List.erase_cons_tail (by simpa using heq)]
      cases hp : p m' with
      | true => rw [List.find?_cons_of_pos hp, List.find?_cons_of_pos hp]
      | false =>
        rw [List.find?_cons_of_neg (by simp [hp]), List.find?_cons_of_neg (by simp [hp]), ih]

theorem first?_delete_of_ne (h : (delete m).run k = (a, k')) (hm : m.isOf index ip = true)
    (hne : other ≠ ip) : k'.first? index other = k.first? index other := by
  obtain ⟨-, -, haddresses | haddresses⟩ := delete_run h
  · rw [first?, haddresses, first?]
  · rw [first?, haddresses, find?_erase_of_neg (AddressMessage.isOf_eq_false_of_ne hm hne), first?]

end Kernel

namespace LinuxHost
variable {h h' : LinuxHost} {iface : LiveInterface} {ip : IpAddr} {a : Except Fault Unit}

/-- The messages of an index are those of the table, whether or not the kernel ignores the index. -/
theorem messages_ok {index : Nat} {ms : List AddressMessage} (hms : h.messages index = .ok ms) :
    ms = h.kernel.addresses.filter (·.index = index) := by
  unfold NetlinkHost.messages at hms
  split at hms
  · next found hfound =>
    have hdump : found = (h.kernel.dumpAddresses index).messages := by
      unfold Kernel.Dump.collect at hfound
      split at hfound
      · exact (Except.ok.inj hfound).symm
      · cases hfound
    rw [← Except.ok.inj hms, hdump]
    unfold Kernel.dumpAddresses
    dsimp only
    split
    · rfl
    · rw [List.filter_filter]
      simp only [Bool.and_self]
  · cases hms

theorem interfaces_run {live : Except Fault (List LiveInterface)}
    (hrun : HostBackend.interfaces.run h = (live, h')) : h' = h ∧
      ∀ found, live = .ok found → found = h.kernel.links.map LinkMessage.toInterface := by
  obtain ⟨hlive, rfl⟩ := Prod.mk.inj hrun
  refine ⟨rfl, ?_⟩
  rintro found rfl
  split at hlive
  · next links hlinks =>
    rw [← Except.ok.inj hlive]
    unfold Kernel.Dump.collect at hlinks
    split at hlinks
    · rw [← Except.ok.inj hlinks]
      rfl
    · cases hlinks
  · cases hlive

theorem addresses_run {found : Except Fault (List LiveAddress)}
    (hrun : (HostBackend.addresses iface).run h = (found, h')) : h' = h ∧
      ∀ addresses, found = .ok addresses → addresses = h.kernel.addressesAt iface.index := by
  obtain ⟨hfound, rfl⟩ := Prod.mk.inj hrun
  refine ⟨rfl, ?_⟩
  rintro addresses rfl
  cases hms : h.messages iface.index with
  | error fault =>
    rw [hms] at hfound
    cases hfound
  | ok ms =>
    rw [hms] at hfound
    rw [← Except.ok.inj hfound, messages_ok hms]
    rfl

theorem bind_run {prefixLen : Nat} (hrun : (HostBackend.bind iface ip prefixLen).run h = (a, h')) :
    ∃ result, (Kernel.add iface.index ip prefixLen).run h.kernel = (result, h'.kernel) := by
  obtain ⟨-, rfl⟩ := Prod.mk.inj hrun
  exact ⟨_, rfl⟩

theorem unbind_run (hrun : (HostBackend.unbind iface ip).run h = (a, h')) :
    h' = h ∨ ∃ m result, h.kernel.first? iface.index ip = some m ∧
      (Kernel.delete m).run h.kernel = (result, h'.kernel) := by
  simp only [HostBackend.unbind, StateT.run] at hrun
  split at hrun
  · cases hrun
    exact .inl rfl
  · next ms hms =>
    split at hrun
    · cases hrun
      exact .inl rfl
    · next m hfind =>
      rw [messages_ok hms, List.find?_filter] at hfind
      obtain ⟨-, rfl⟩ := Prod.mk.inj hrun
      exact .inr ⟨m, _, by simpa [Kernel.first?, AddressMessage.isOf] using hfind, rfl⟩

end LinuxHost

/-- A recorded site whose host asks a kernel for its changes. -/
class LinuxSite (N : Type) [Site N] extends RecordedSite N where
  kernel : N → Kernel
  interfaces_ok {n n' : N} {live : List LiveInterface} :
    Site.interfaces.run n = (.ok live, n') →
      live = (kernel n).links.map LinkMessage.toInterface
  interfaces_kernel {n n' : N} {a : Except Fault (List LiveInterface)} :
    Site.interfaces.run n = (a, n') → kernel n' = kernel n
  addresses_ok {n n' : N} {iface : LiveInterface} {addresses : List LiveAddress} :
    (Site.addresses iface).run n = (.ok addresses, n') →
      addresses = (kernel n).addressesAt iface.index
  addresses_kernel {n n' : N} {iface : LiveInterface} {a : Except Fault (List LiveAddress)} :
    (Site.addresses iface).run n = (a, n') → kernel n' = kernel n
  bind_kernel {n n' : N} {iface : LiveInterface} {ip : IpAddr} {k : Nat} {a : Except Fault Unit} :
    (Site.bind iface ip k).run n = (a, n') →
      ∃ result, (Kernel.add iface.index ip k).run (kernel n) = (result, kernel n')
  unbind_kernel {n n' : N} {iface : LiveInterface} {ip : IpAddr} {a : Except Fault Unit} :
    (Site.unbind iface ip).run n = (a, n') → kernel n' = kernel n ∨
      ∃ m result, (kernel n).first? iface.index ip = some m ∧
        (Kernel.delete m).run (kernel n) = (result, kernel n')
  read_kernel {n n' : N} {key : String} {a : Except Fault (Option (List String))} :
    (Site.readRecord key).run n = (a, n') → kernel n' = kernel n
  write_kernel {n n' : N} {key : String} {ips : List String} {a : Except Fault Unit} :
    (Site.writeRecord key ips).run n = (a, n') → kernel n' = kernel n

/-- A machine with a Linux host, over any recorded ledger. -/
instance {L : Type} [LedgerStore L] [RecordedLedger L] : LinuxSite (Machine LinuxHost L) where
  kernel m := m.host.kernel
  interfaces_ok := by
    intro n n' live h
    obtain ⟨host, hh, -⟩ := Machine.onHost_run h
    exact (LinuxHost.interfaces_run hh).2 live rfl
  interfaces_kernel := by
    intro n n' a h
    obtain ⟨host, hh, rfl⟩ := Machine.onHost_run h
    exact congrArg NetlinkHost.kernel (LinuxHost.interfaces_run hh).1
  addresses_ok := by
    intro n n' iface addresses h
    obtain ⟨host, hh, -⟩ := Machine.onHost_run h
    exact (LinuxHost.addresses_run hh).2 addresses rfl
  addresses_kernel := by
    intro n n' iface a h
    obtain ⟨host, hh, rfl⟩ := Machine.onHost_run h
    exact congrArg NetlinkHost.kernel (LinuxHost.addresses_run hh).1
  bind_kernel := by
    intro n n' iface ip k a h
    obtain ⟨host, hh, rfl⟩ := Machine.onHost_run h
    exact LinuxHost.bind_run hh
  unbind_kernel := by
    intro n n' iface ip a h
    obtain ⟨host, hh, rfl⟩ := Machine.onHost_run h
    exact (LinuxHost.unbind_run hh).imp_left (congrArg NetlinkHost.kernel)
  read_kernel := by
    intro n n' key a h
    obtain ⟨ledger, -, rfl⟩ := Machine.onLedger_run h
    rfl
  write_kernel := by
    intro n n' key ips a h
    obtain ⟨ledger, -, rfl⟩ := Machine.onLedger_run h
    rfl

instance {N : Type} [Site N] [LinuxSite N] : LinuxSite (Observed N) where
  kernel o := LinuxSite.kernel o.site
  interfaces_ok h := LinuxSite.interfaces_ok (Observed.noting_run h).1
  interfaces_kernel h := LinuxSite.interfaces_kernel (Observed.noting_run h).1
  addresses_ok h := LinuxSite.addresses_ok (Observed.noting_run h).1
  addresses_kernel h := LinuxSite.addresses_kernel (Observed.noting_run h).1
  bind_kernel h := LinuxSite.bind_kernel (Observed.noting_run h).1
  unbind_kernel h := LinuxSite.unbind_kernel (Observed.noting_run h).1
  read_kernel h := LinuxSite.read_kernel (Observed.noting_run h).1
  write_kernel h := LinuxSite.write_kernel (Observed.noting_run h).1

end ForwardedIp
