import Mathlib.Data.Multiset.Filter
import ForwardedIp.Proofs.LinuxSite
/-!
# Hosts on which nothing fails

The outline of a host is what it tells about its interfaces and about what is bound. A reliable
host grants every request that makes sense, and a request has its effect on the outline and no
other. A host in memory without faults is reliable. So is a host that talks to a reliable kernel,
of which nothing is assumed but that it tells all there is, that what it adds is one message with
the address, and that what it deletes is one copy of the message.
-/
namespace ForwardedIp

/-- What a host tells: its interfaces, and what is bound at each index, in no order. -/
structure Outline where
  listed : List LiveInterface
  bound : Nat → Multiset LiveAddress

namespace Outline
variable {o : Outline} {index other : Nat} {xs ys : Multiset LiveAddress}

/-- Replaces what is bound at an index. -/
def put (o : Outline) (index : Nat) (xs : Multiset LiveAddress) : Outline :=
  { o with bound := Function.update o.bound index xs }

@[simp] theorem put_listed : (o.put index xs).listed = o.listed := rfl

@[simp] theorem put_bound_self : (o.put index xs).bound index = xs := Function.update_self ..

theorem put_bound_of_ne (h : other ≠ index) : (o.put index xs).bound other = o.bound other :=
  Function.update_of_ne h ..

@[simp] theorem put_put : (o.put index xs).put index ys = o.put index ys :=
  congrArg (Outline.mk o.listed) (Function.update_idem ..)

@[simp] theorem put_bound : o.put index (o.bound index) = o :=
  congrArg (Outline.mk o.listed) (Function.update_eq_self ..)

theorem eq_put {o' : Outline} (hlisted : o'.listed = o.listed) (hself : o'.bound index = xs)
    (hother : ∀ other, other ≠ index → o'.bound other = o.bound other) :
    o' = o.put index xs := by
  obtain ⟨listed, bound⟩ := o'
  obtain rfl : listed = o.listed := hlisted
  exact congrArg (Outline.mk o.listed) (Function.eq_update_iff.mpr ⟨hself, hother⟩)

end Outline

/-- A host that can be reliable. Then it tells its outline; an IP that is not yet bound at an index
gets bound there, and one that is bound there once gets unbound. -/
class ReliableHost (H : Type) [HostBackend H] where
  Reliable : H → Prop
  outline : H → Outline
  interfaces_run {h : H} (hreliable : Reliable h) :
    HostBackend.interfaces.run h = (.ok (outline h).listed, h)
  addresses_run {h : H} (hreliable : Reliable h) (iface : LiveInterface) :
    ∃ found : List LiveAddress, (HostBackend.addresses iface).run h = (.ok found, h) ∧
      (found : Multiset LiveAddress) = (outline h).bound iface.index
  bind_run {h : H} (hreliable : Reliable h) (iface : LiveInterface) (ip : IpAddr) (prefixLen : Nat)
    (hfresh : ∀ x ∈ (outline h).bound iface.index, x.ip ≠ ip) :
    ∃ h', (HostBackend.bind iface ip prefixLen).run h = (.ok (), h') ∧ Reliable h' ∧
      outline h' =
        (outline h).put iface.index (⟨ip, prefixLen⟩ ::ₘ (outline h).bound iface.index)
  unbind_run {h : H} (hreliable : Reliable h) (iface : LiveInterface) {x : LiveAddress}
    (hbound : x ∈ (outline h).bound iface.index)
    (hsingle : (((outline h).bound iface.index).map LiveAddress.ip).Nodup) :
    ∃ h', (HostBackend.unbind iface x.ip).run h = (.ok (), h') ∧ Reliable h' ∧
      outline h' = (outline h).put iface.index
        (((outline h).bound iface.index).filter fun y => y.ip ≠ x.ip)

namespace MemoryHost

def outline (h : MemoryHost) : Outline := ⟨h.interfaces, fun index => h.addressesAt index⟩

theorem outline_setAddresses (h : MemoryHost) (index : Nat) (addresses : List LiveAddress) :
    (h.setAddresses index addresses).outline = h.outline.put index addresses := by
  refine Outline.eq_put rfl ?_ fun other hne => ?_
  · exact congrArg _ (addressesAt_setAddresses h index addresses)
  · exact congrArg _ (addressesAt_setAddresses_of_ne hne h addresses)

instance : ReliableHost MemoryHost where
  Reliable h := h.faults = {}
  outline := outline
  interfaces_run := by
    intro h hreliable
    show (if h.faults.enumerate then _ else _, h) = _
    rw [hreliable]
    rfl
  addresses_run := by
    intro h hreliable iface
    refine ⟨h.addressesAt iface.index, ?_, rfl⟩
    show (if h.faults.unreadable.contains iface.index then _ else _, h) = _
    rw [hreliable]
    rfl
  bind_run := by
    intro h hreliable iface ip prefixLen hfresh
    refine ⟨h.append iface.index ⟨ip, prefixLen⟩, ?_, hreliable, ?_⟩
    · show (if h.faults.unbindable.contains ip then _ else _) = _
      rw [hreliable]
      rfl
    · rw [append, outline_setAddresses]
      exact congrArg _ (Multiset.coe_eq_coe.mpr (List.perm_append_singleton _ _))
  unbind_run := by
    intro h hreliable iface x hbound hsingle
    refine ⟨h.dropIp iface.index x.ip, ?_, hreliable, ?_⟩
    · show (if h.faults.unremovable.contains x.ip then _ else _) = _
      rw [hreliable]
      rfl
    · rw [dropIp, outline_setAddresses]
      rfl

end MemoryHost

/-- A kernel that can be reliable. Then a list of its links is complete, and so is what it tells
about the addresses at an index, to which it may add those at other indexes. An IP that is not at
an index gets added as one message with that address, and a message that is there gets deleted. -/
class ReliableKernel (K : Type) [RouteKernel K] where
  Reliable : K → Prop
  links : K → List LinkMessage
  table : K → Multiset AddressMessage
  dumpLinks_eq {k : K} (hreliable : Reliable k) : RouteKernel.dumpLinks k = ⟨links k, none⟩
  dumpAddresses_eq {k : K} (hreliable : Reliable k) (index : Nat) :
    ∃ messages, RouteKernel.dumpAddresses k index = ⟨messages, none⟩ ∧
      (messages.filter (·.index = index) : List AddressMessage) =
        (table k).filter (·.index = index)
  add_run {k : K} (hreliable : Reliable k) {index : Nat} {ip : IpAddr} (prefixLen : Nat)
    (hfresh : ∀ m ∈ table k, m.isOf index ip = false) :
    ∃ k' m, (RouteKernel.add index ip prefixLen).run k = (.ok (), k') ∧ Reliable k' ∧
      links k' = links k ∧ table k' = m ::ₘ table k ∧ m.index = index ∧
        m.toAddress? = some ⟨ip, prefixLen⟩
  delete_run {k : K} (hreliable : Reliable k) {m : AddressMessage} (hm : m ∈ table k) :
    ∃ k', (RouteKernel.delete m).run k = (.ok (), k') ∧ Reliable k' ∧ links k' = links k ∧
      table k' = (table k).erase m

namespace Kernel

/-- No request is made to fail. -/
structure Untroubled (k : Kernel) : Prop where
  links : k.switches.linksFail = false
  dumps : k.switches.dumpsFail = []
  adds : k.switches.addsFail = []
  deletes : k.switches.deletesFail = []

instance : ReliableKernel Kernel where
  Reliable := Untroubled
  links := links
  table k := k.addresses
  dumpLinks_eq := by
    intro k hreliable
    show (⟨k.links, if k.switches.linksFail then _ else _⟩ : Dump LinkMessage) = _
    rw [hreliable.links]
    rfl
  dumpAddresses_eq := by
    intro k hreliable index
    refine ⟨(k.dumpAddresses index).messages, ?_, ?_⟩
    · show (⟨_, if k.switches.dumpsFail.contains index then _ else _⟩ : Dump AddressMessage) = _
      rw [hreliable.dumps]
      rfl
    · rw [Multiset.filter_coe, dumpAddresses]
      dsimp only
      split
      · rfl
      · simp [List.filter_filter]
  add_run := by
    intro k hreliable index ip prefixLen hfresh
    have hnew : k.addresses.contains (messageOf index ip prefixLen) = false := by
      rw [Bool.eq_false_iff]
      intro hmem
      have hold := hfresh _ (List.contains_iff_mem.mp hmem)
      have hsame : (messageOf index ip prefixLen).isOf index ip = true :=
        AddressMessage.isOf_eq_true.mpr ⟨rfl, rfl⟩
      rw [hsame] at hold
      cases hold
    refine ⟨{ k.note (.add index ip prefixLen) with
      addresses := k.addresses ++ [messageOf index ip prefixLen] }, messageOf index ip prefixLen,
      ?_, ⟨hreliable.links, hreliable.dumps, hreliable.adds, hreliable.deletes⟩, rfl, ?_, rfl, rfl⟩
    · show (if k.switches.addsFail.contains ip then _
        else if k.addresses.contains (messageOf index ip prefixLen) then _ else _) = _
      rw [hreliable.adds, hnew]
      rfl
    · exact Multiset.coe_eq_coe.mpr (List.perm_append_singleton _ _)
  delete_run := by
    intro k hreliable m hm
    have hmem : k.addresses.contains m = true := List.contains_iff_mem.mpr hm
    have hfree : m.firstIp?.any k.switches.deletesFail.contains = false := by
      rw [hreliable.deletes]
      cases m.firstIp? <;> rfl
    refine ⟨{ k.note (.delete m) with addresses := k.addresses.erase m }, ?_,
      ⟨hreliable.links, hreliable.dumps, hreliable.adds, hreliable.deletes⟩, rfl,
      (Multiset.coe_erase ..).symm⟩
    show (if m.firstIp?.any k.switches.deletesFail.contains then _
      else if k.addresses.contains m then _ else _) = _
    rw [hfree, hmem]
    rfl

end Kernel

namespace AddressMessage
variable {table : Multiset AddressMessage} {m : AddressMessage} {index : Nat} {x : LiveAddress}

/-- The addresses that the messages of a table bind at an index. -/
def boundIn (table : Multiset AddressMessage) (index : Nat) : Multiset LiveAddress :=
  (table.filter (·.index = index)).filterMap toAddress?

theorem mem_boundIn :
    x ∈ boundIn table index ↔ ∃ m ∈ table, m.index = index ∧ m.toAddress? = some x := by
  simp [boundIn, and_assoc]

theorem boundIn_cons_self (hindex : m.index = index) (hm : m.toAddress? = some x) :
    boundIn (m ::ₘ table) index = x ::ₘ boundIn table index := by
  have hfilter : (m ::ₘ table).filter (·.index = index) = m ::ₘ table.filter (·.index = index) :=
    Multiset.filter_cons_of_pos _ hindex
  rw [boundIn, hfilter, Multiset.filterMap_cons_some _ _ _ hm, boundIn]

theorem boundIn_cons_of_ne (hne : m.index ≠ index) :
    boundIn (m ::ₘ table) index = boundIn table index := by
  have hfilter : (m ::ₘ table).filter (·.index = index) = table.filter (·.index = index) :=
    Multiset.filter_cons_of_neg _ hne
  rw [boundIn, hfilter, boundIn]

theorem boundIn_erase (hmem : m ∈ table) (hindex : m.index = index) (hm : m.toAddress? = some x)
    (hsingle : ((boundIn table index).map LiveAddress.ip).Nodup) :
    boundIn (table.erase m) index = (boundIn table index).filter fun y => y.ip ≠ x.ip := by
  have hcons : boundIn table index = x ::ₘ boundIn (table.erase m) index := by
    rw [← boundIn_cons_self hindex hm, Multiset.cons_erase hmem]
  rw [hcons, Multiset.map_cons, Multiset.nodup_cons] at hsingle
  obtain ⟨hother, -⟩ := hsingle
  have hself : (x ::ₘ boundIn (table.erase m) index).filter (fun y => y.ip ≠ x.ip) =
      (boundIn (table.erase m) index).filter fun y => y.ip ≠ x.ip :=
    Multiset.filter_cons_of_neg _ (by simp)
  rw [hcons, hself]
  have hrest : ∀ y ∈ boundIn (table.erase m) index, y.ip ≠ x.ip := by
    intro y hy heq
    rw [← heq] at hother
    exact hother (Multiset.mem_map_of_mem LiveAddress.ip hy)
  exact (Multiset.filter_eq_self.mpr hrest).symm

theorem boundIn_erase_of_ne (hmem : m ∈ table) (hne : m.index ≠ index) :
    boundIn (table.erase m) index = boundIn table index := by
  rw [← boundIn_cons_of_ne hne, Multiset.cons_erase hmem]

end AddressMessage

namespace NetlinkHost
open ReliableKernel AddressMessage
variable {K : Type} [RouteKernel K] [ReliableKernel K] {h : NetlinkHost K}

def outline (h : NetlinkHost K) : Outline :=
  ⟨(links h.kernel).map LinkMessage.toInterface, boundIn (table h.kernel)⟩

theorem messages_run (hreliable : Reliable h.kernel) (index : Nat) :
    ∃ messages, h.messages index = .ok messages ∧
      (messages : Multiset AddressMessage) = (table h.kernel).filter (·.index = index) := by
  obtain ⟨messages, hdump, htable⟩ := dumpAddresses_eq hreliable index
  refine ⟨messages.filter (·.index = index), ?_, htable⟩
  rw [NetlinkHost.messages, hdump]
  rfl

instance : ReliableHost (NetlinkHost K) where
  Reliable h := Reliable h.kernel
  outline := outline
  interfaces_run := by
    intro h hreliable
    show (match (RouteKernel.dumpLinks h.kernel).collect with | .ok ms => _ | .error e => _, h) = _
    rw [dumpLinks_eq hreliable]
    rfl
  addresses_run := by
    intro h hreliable iface
    obtain ⟨messages, hmessages, htable⟩ := messages_run hreliable iface.index
    refine ⟨messages.filterMap toAddress?, ?_, ?_⟩
    · show ((h.messages iface.index).map _, h) = _
      rw [hmessages]
      rfl
    · rw [← Multiset.filterMap_coe, htable]
      rfl
  bind_run := by
    intro h hreliable iface ip prefixLen hfresh
    have hnone : ∀ m ∈ table h.kernel, m.isOf iface.index ip = false := by
      intro m hm
      rw [Bool.eq_false_iff]
      intro hof
      obtain ⟨hindex, haddress⟩ := isOf_eq_true.mp hof
      exact hfresh _ (mem_boundIn.mpr ⟨m, hm, hindex, haddress⟩) rfl
    obtain ⟨k', m, hrun, hreliable', hlinks, htable, hindex, haddress⟩ :=
      add_run hreliable prefixLen hnone
    refine ⟨⟨k'⟩, ?_, hreliable', Outline.eq_put ?_ ?_ fun other hne => ?_⟩
    · show NetlinkHost.request _ _ iface h = _
      rw [NetlinkHost.request]
      exact congrArg (fun r : Except String Unit × K => (r.1.mapError _, (⟨r.2⟩ : NetlinkHost K)))
        hrun
    · rw [outline, hlinks]
      rfl
    · show boundIn (table k') iface.index = _
      rw [htable, boundIn_cons_self hindex haddress]
      rfl
    · show boundIn (table k') other = _
      rw [htable, boundIn_cons_of_ne (hindex ▸ hne.symm)]
      rfl
  unbind_run := by
    intro h hreliable iface x hbound hsingle
    obtain ⟨messages, hmessages, htable⟩ := messages_run hreliable iface.index
    have hmem : ∀ m, m ∈ messages ↔ m ∈ table h.kernel ∧ m.index = iface.index := by
      intro m
      rw [← Multiset.mem_coe, htable, Multiset.mem_filter]
    have hfound : (messages.find? fun m => m.toAddress?.any (·.ip = x.ip)).isSome = true := by
      obtain ⟨m, hm, hindex, haddress⟩ := mem_boundIn.mp hbound
      rw [List.find?_isSome]
      exact ⟨m, (hmem m).mpr ⟨hm, hindex⟩, by simp [haddress]⟩
    obtain ⟨m, hfind⟩ := Option.isSome_iff_exists.mp hfound
    obtain ⟨hm, hindex⟩ := (hmem m).mp (List.mem_of_find?_eq_some hfind)
    obtain ⟨y, haddress, hy⟩ : ∃ y, m.toAddress? = some y ∧ y.ip = x.ip := by
      simpa [Option.any_eq_true] using List.find?_some hfind
    obtain ⟨k', hrun, hreliable', hlinks, htable'⟩ := delete_run hreliable hm
    refine ⟨⟨k'⟩, ?_, hreliable', Outline.eq_put ?_ ?_ fun other hne => ?_⟩
    · show (match h.messages iface.index with | .error fault => _ | .ok ms => _) = _
      rw [hmessages]
      show (match messages.find? _ with | none => _ | some m => _) = _
      rw [hfind]
      exact congrArg (fun r : Except String Unit × K => (r.1.mapError _, (⟨r.2⟩ : NetlinkHost K)))
        hrun
    · rw [outline, hlinks]
      rfl
    · show boundIn (table k') iface.index = _
      rw [htable', boundIn_erase hm hindex haddress hsingle, hy]
      rfl
    · show boundIn (table k') other = _
      rw [htable', boundIn_erase_of_ne hm (hindex ▸ hne.symm)]
      rfl

end NetlinkHost

end ForwardedIp
