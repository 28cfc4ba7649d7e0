import ForwardedIp.Proofs.Convergence
import ForwardedIp.Proofs.LinuxSite
/-!
# What is deleted on Linux

The kernel is asked to delete a message only for an IP that the manager owns, that is bound with
the host prefix, and that nobody wants. Which message that is, the host decides by the IP alone: it
is the first one of the link with the IP. It is the one that the manager owns exactly if it has the
host prefix; a message with another prefix that stands before it goes in its place.
-/
namespace ForwardedIp

open RecordedSite LinuxSite

variable {N : Type} [Site N] [LinuxSite N]

/-- A message is the first one with an IP that is bound on its link, owned and not wanted. -/
structure Deletion (d : DeclaredInterface) (n : N) (mac : Mac) (ip : IpAddr) (m : AddressMessage) :
    Prop where
  link : ∃ link ∈ (kernel n).links, link.index = m.index ∧ link.mac? = some mac
  declared : Mac.parse? d.mac = some mac
  owned : ip.text ∈ Visit.ownedOf (record n mac.text)
  unwanted : ip.text ∉ Visit.wantedOf d.forwardedIps
  bound : .host ip ∈ (kernel n).addressesAt m.index
  first : (kernel n).first? m.index ip = some m

namespace Visit
variable {live : List LiveInterface} {d : DeclaredInterface} {n n' : N} {v : Visit} {w : Work}
  {iface : LiveInterface} {texts : List String} {attempts : List Attempt}

theorem Tries.kernel_binds (h : Tries (bindHost iface) texts n attempts n') :
    (kernel n').links = (kernel n).links ∧
      (∃ added, (kernel n').addresses = (kernel n).addresses ++ added) ∧
      ∃ since, (kernel n').requests = (kernel n).requests ++ since ∧ ∀ m, .delete m ∉ since := by
  induction h with
  | nil n => exact ⟨rfl, ⟨[], (List.append_nil _).symm⟩, [], (List.append_nil _).symm, by simp⟩
  | @cons t ip texts n n₁ n' answer attempts hip hact rest ih =>
    obtain ⟨result, hadd⟩ := bind_kernel hact
    obtain ⟨hlinks, hrequests, added, haddresses⟩ := Kernel.add_run hadd
    obtain ⟨hlinks', ⟨added', haddresses'⟩, since, hrequests', hnone⟩ := ih
    refine ⟨hlinks'.trans hlinks, ⟨added ++ added', ?_⟩,
      .add iface.index ip ip.hostPrefix :: since, ?_, ?_⟩
    · rw [haddresses', haddresses, List.append_assoc]
    · rw [hrequests', hrequests, List.append_assoc, List.singleton_append]
    · simpa using hnone

/-- Attempts to unbind different IPs ask for the deletion of the messages that came first for them
from the start. -/
theorem Tries.kernel_unbinds (h : Tries (Site.unbind iface) texts n attempts n')
    (hnodup : texts.Nodup) (hprinted : Printed texts) :
    (kernel n').links = (kernel n).links ∧
      ∃ since, (kernel n').requests = (kernel n).requests ++ since ∧
        ∀ m, .delete m ∈ since → ∃ t ∈ texts, ∃ ip, IpAddr.parse? t = some ip ∧
          (kernel n).first? iface.index ip = some m := by
  induction h with
  | nil n => exact ⟨rfl, [], (List.append_nil _).symm, by simp⟩
  | @cons t ip texts n n₁ n' answer attempts hip hact rest ih =>
    obtain ⟨hfresh, hnodup⟩ := List.nodup_cons.mp hnodup
    obtain ⟨ht, hprinted⟩ := List.forall_mem_cons.mp hprinted
    obtain ⟨hlinks, since, hrequests, hsince⟩ := ih hnodup hprinted
    have hother : ∀ t' ∈ texts, ∀ ip', IpAddr.parse? t' = some ip' → ip' ≠ ip := by
      rintro t' ht' ip' hip' rfl
      rw [ht ip' hip, ← hprinted t' ht' ip' hip'] at hfresh
      exact hfresh ht'
    rcases unbind_kernel hact with hsame | ⟨m₀, result, hfirst, hdelete⟩
    · rw [hsame] at hlinks hrequests hsince
      refine ⟨hlinks, since, hrequests, fun m hm => ?_⟩
      obtain ⟨t', ht', hm⟩ := hsince m hm
      exact ⟨t', List.mem_cons_of_mem t ht', hm⟩
    · -- The other IPs keep their first messages, so what comes next is as from the start.
      obtain ⟨hlinks₀, hrequests₀, -⟩ := Kernel.delete_run hdelete
      refine ⟨hlinks.trans hlinks₀, .delete m₀ :: since, ?_, fun m hm => ?_⟩
      · rw [hrequests, hrequests₀, List.append_assoc, List.singleton_append]
      · rcases List.mem_cons.mp hm with heq | hm
        · cases heq
          exact ⟨t, List.mem_cons_self, ip, hip, hfirst⟩
        · obtain ⟨t', ht', ip', hip', hm⟩ := hsince m hm
          rw [Kernel.first?_delete_of_ne hdelete (Kernel.isOf_of_first? hfirst)
            (hother t' ht' ip' hip')] at hm
          exact ⟨t', List.mem_cons_of_mem t ht', ip', hip', hm⟩

namespace Reconciliation

theorem kernel_requests (r : Reconciliation live d n w n')
    (hlive : live = (kernel n).links.map LinkMessage.toInterface) :
    (kernel n').links = (kernel n).links ∧
      ∃ since, (kernel n').requests = (kernel n).requests ++ since ∧
        ∀ m, .delete m ∈ since → ∃ ip, Deletion d n w.mac ip m := by
  have hread : kernel r.afterRead = kernel n := by
    rw [read_kernel r.read_run, addresses_kernel r.addresses_run]
  obtain ⟨hlinks, ⟨added, haddresses⟩, binds, hbinds, hnone⟩ := r.binds_run.kernel_binds
  obtain ⟨hlinks', unbinds, hunbinds, hdeleted⟩ :=
    r.unbinds_run.kernel_unbinds (nodup_eraseDups _) r.printed_toRemove
  rw [hread] at hlinks haddresses hbinds
  rw [write_kernel r.write_run]
  refine ⟨hlinks'.trans hlinks, binds ++ unbinds, ?_, fun m hm => ?_⟩
  · rw [hunbinds, hbinds, List.append_assoc]
  · have hm' : .delete m ∈ unbinds := (List.mem_append.mp hm).resolve_left (hnone m)
    obtain ⟨t, ht, ip, hip, hfirst⟩ := hdeleted m hm'
    have htext : t = ip.text := r.printed_toRemove t ht ip hip
    obtain ⟨hbound, hrecorded, hunwanted⟩ := AddressDiff.mem_toRemove.mp ht
    rw [htext] at hbound hrecorded hunwanted
    rw [r.bound_eq, addresses_ok r.addresses_run] at hbound
    obtain ⟨x, hx, hxtext⟩ := List.mem_map.mp hbound
    obtain rfl : x = .host ip := LiveAddress.text_eq_text.mp hxtext
    -- What the visit bound stands behind what was there.
    have hsome : ((kernel n).first? w.iface.index ip).isSome = true := Kernel.first?_isSome hx
    rw [Kernel.first?_append hsome haddresses] at hfirst
    obtain ⟨hindex, -⟩ := AddressMessage.isOf_eq_true.mp (Kernel.isOf_of_first? hfirst)
    obtain ⟨entries, -, hentries, hmem⟩ := r.mem_record hrecorded
    refine ⟨ip, ⟨?_, r.mac_eq, ?_, r.wanted_eq ▸ hunwanted, hindex ▸ hx, hindex ▸ hfirst⟩⟩
    · have hiface := r.iface_mem
      rw [hlive] at hiface
      obtain ⟨link, hlink, heq⟩ := List.mem_map.mp hiface
      refine ⟨link, hlink, ?_, ?_⟩
      · rw [hindex, ← heq]
        rfl
      · rw [← r.iface_mac, ← heq]
        rfl
    · rw [mem_ownedOf]
      exact ⟨⟨entries, hentries, hmem⟩, IpAddr.isIp_text ip⟩

end Reconciliation

theorem Goes.kernel_requests (g : Goes live d n v n')
    (hlive : live = (kernel n).links.map LinkMessage.toInterface) :
    (kernel n').links = (kernel n).links ∧
      ∃ since, (kernel n').requests = (kernel n).requests ++ since ∧
        ∀ m, .delete m ∈ since → ∃ mac ip, Deletion d n mac ip m := by
  have hquiet : ∀ n₁ : N, kernel n₁ = kernel n → (kernel n₁).links = (kernel n).links ∧
      ∃ since, (kernel n₁).requests = (kernel n).requests ++ since ∧
        ∀ m, .delete m ∈ since → ∃ mac ip, Deletion d n mac ip m := by
    intro n₁ hsame
    rw [hsame]
    exact ⟨rfl, [], (List.append_nil _).symm, by simp⟩
  cases g with
  | unparseable hmac => exact hquiet n rfl
  | unmatched hmac hmatch => exact hquiet n rfl
  | unreadable hmac hmatch haddresses => exact hquiet n' (addresses_kernel haddresses)
  | unrecorded hmac hmatch haddresses hread hfault =>
    exact hquiet n' ((read_kernel hread).trans (addresses_kernel haddresses))
  | @reconciled w _ r =>
    obtain ⟨hlinks, since, hrequests, hdeleted⟩ := r.kernel_requests hlive
    exact ⟨hlinks, since, hrequests, fun m hm => ⟨w.mac, hdeleted m hm⟩⟩

end Visit

namespace Passage
variable {n n' : N} {p : Passage N} {ps : List (Passage N)} {live : List LiveInterface}

/-- What a passage asks the kernel. -/
def asked (p : Passage N) : List AddressRequest :=
  (kernel p.after).requests.drop (kernel p.before).requests.length

def SameKernel (n n' : N) : Prop := kernel n' = kernel n

theorem between_sameKernel : Between (SameKernel : N → N → Prop) where
  refl _ := rfl
  trans h h' := Eq.trans h' h
  listed := interfaces_kernel

theorem Goes.asked (g : p.Goes) (hlive : p.live = (kernel p.before).links.map LinkMessage.toInterface) :
    (kernel p.after).links = (kernel p.before).links ∧
      (kernel p.after).requests = (kernel p.before).requests ++ p.asked ∧
        ∀ m, .delete m ∈ p.asked → ∃ mac ip, Deletion p.declared p.before mac ip m := by
  obtain ⟨hlinks, since, hrequests, hdeleted⟩ := Visit.Goes.kernel_requests g hlive
  have hasked : p.asked = since := by rw [Passage.asked, hrequests, List.drop_left]
  rw [hasked]
  exact ⟨hlinks, hrequests, hdeleted⟩

/-- What a chain asks the kernel its passages ask, over the links that it started with. -/
theorem Chain.asked (h : Chain SameKernel n ps n')
    (hlive : ∀ p ∈ ps, p.live = (kernel n).links.map LinkMessage.toInterface) :
    (kernel n').requests = (kernel n).requests ++ ps.flatMap Passage.asked ∧
      ∀ p ∈ ps, ∀ m, .delete m ∈ p.asked → ∃ mac ip, Deletion p.declared p.before mac ip m := by
  induction h with
  | @nil n n' hlast =>
    rw [show kernel n' = kernel n from hlast]
    exact ⟨(List.append_nil _).symm, by simp⟩
  | @cons n n' p ps hfirst hgoes rest ih =>
    obtain ⟨hp, hps⟩ := List.forall_mem_cons.mp hlive
    rw [← show kernel p.before = kernel n from hfirst] at hp hps ⊢
    obtain ⟨hlinks, hrequests, hdeleted⟩ := hgoes.asked hp
    rw [← hlinks] at hps
    obtain ⟨hrequests', hdeleted'⟩ := ih hps
    refine ⟨?_, List.forall_mem_cons.mpr ⟨hdeleted, hdeleted'⟩⟩
    rw [hrequests', hrequests, List.append_assoc, List.flatMap_cons]

end Passage

namespace Engine

/-- Every deletion that a command asks the kernel for is that of the first message with an IP that
is bound with the host prefix on a link, owned by the record of the link's hardware address and not
wanted there. The message itself is owned exactly if it has the host prefix. -/
theorem deletions_first (e : Engine) (c : Command) (n : N) :
    (kernel ((e.perform c).run n).2).requests =
        (kernel n).requests ++ (e.passages c n).flatMap Passage.asked ∧
      ∀ p ∈ e.passages c n, ∀ m, .delete m ∈ p.asked →
        ∃ mac x, m.toAddress? = some x ∧ Deletion p.declared p.before mac x.ip m ∧
          (x.text ∈ Visit.ownedOf (record p.before mac.text) ↔ x = .host x.ip) := by
  have hchain := chain_perform Passage.between_sameKernel e c n
  have hlive : ∀ p ∈ e.passages c n, p.live = (kernel n).links.map LinkMessage.toInterface := by
    intro p hp
    obtain ⟨-, -, -, -, n', hlisted⟩ := mem_passages hp
    exact interfaces_ok hlisted
  obtain ⟨hrequests, hdeleted⟩ := hchain.asked hlive
  refine ⟨hrequests, fun p hp m hm => ?_⟩
  obtain ⟨mac, ip, hdeletion⟩ := hdeleted p hp m hm
  obtain ⟨-, haddress⟩ := AddressMessage.isOf_eq_true.mp (Kernel.isOf_of_first? hdeletion.first)
  refine ⟨mac, ⟨ip, m.prefixLen⟩, haddress, hdeletion, ?_⟩
  constructor
  · intro howned
    -- Whatever is owned is the text of an IP, which only a host prefix leaves bare.
    obtain ⟨-, hisIp⟩ := Visit.mem_ownedOf.mp howned
    obtain ⟨other, hother⟩ := Option.isSome_iff_exists.mp hisIp
    rw [LiveAddress.parse?_text.mp hother]
    rfl
  · intro hhost
    rw [hhost, LiveAddress.text_host]
    exact hdeletion.owned

/-- A link on which 10.0.0.5 is bound with the prefix lengths given, in this order. The ledger
records it. -/
def twiceBound (prefixLens : List Nat) : Machine LinuxHost MemoryLedger where
  host :=
    { kernel :=
        { links := [⟨2, [.name "eth0", .hardware [2, 0, 0, 0, 0, 10]]⟩]
          addresses := prefixLens.map (Kernel.messageOf 2 Machine.tenFive) } }
  ledger := ⟨[("02:00:00:00:00:0a", ["10.0.0.5"])]⟩

/-- Nothing is declared for the link any more. -/
def retired : Snapshot where
  interfaces := [⟨"02:00:00:00:00:0a", []⟩]

/-- A foreign message goes in place of the recorded one behind it. -/
theorem foreign_deleted : ¬ ∀ (m : Machine LinuxHost MemoryLedger) (s : Snapshot),
    ∀ p ∈ (fresh {}).passages (.apply s) m, ∀ msg, .delete msg ∈ p.asked →
      ∃ link ∈ m.host.kernel.links, link.index = msg.index ∧ ∃ mac, link.mac? = some mac ∧
        ∃ x, msg.toAddress? = some x ∧ x.text ∈ (record p.before mac.text).getD [] := by
  intro hall
  have hdeleted : ∃ p ∈ (fresh {}).passages (.apply retired) (twiceBound [24, 32]),
      .delete (Kernel.messageOf 2 Machine.tenFive 24) ∈ p.asked ∧
        record p.before firstPort.text = some ["10.0.0.5"] := by decide +kernel
  obtain ⟨p, hp, hasked, hrecord⟩ := hdeleted
  obtain ⟨link, hlink, -, mac, hmac, x, hx, howned⟩ := hall _ _ p hp _ hasked
  obtain rfl := List.mem_singleton.mp hlink
  obtain rfl : firstPort = mac := Option.some.inj hmac
  obtain rfl : ⟨Machine.tenFive, 24⟩ = x := Option.some.inj hx
  rw [hrecord] at howned
  revert howned
  decide +kernel

theorem recorded_deleted : ∃ p ∈ (fresh {}).passages (.apply retired) (twiceBound [32, 24]),
    ∃ m mac x, .delete m ∈ p.asked ∧ m.toAddress? = some x ∧
      Deletion p.declared p.before mac x.ip m ∧
        x.text ∈ Visit.ownedOf (record p.before mac.text) := by
  obtain ⟨-, hfirst⟩ := deletions_first (fresh {}) (.apply retired) (twiceBound [32, 24])
  have hdeleted : ∃ p ∈ (fresh {}).passages (.apply retired) (twiceBound [32, 24]),
      .delete (Kernel.messageOf 2 Machine.tenFive 32) ∈ p.asked := by decide +kernel
  obtain ⟨p, hp, hasked⟩ := hdeleted
  obtain ⟨mac, x, hx, hdeletion, howned⟩ := hfirst p hp _ hasked
  obtain rfl : .host Machine.tenFive = x := Option.some.inj hx
  exact ⟨p, hp, _, mac, _, hasked, hx, hdeletion, howned.mpr rfl⟩

end Engine
end ForwardedIp
