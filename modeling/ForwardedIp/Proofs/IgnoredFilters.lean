import ForwardedIp.Host.Netlink
import ForwardedIp.Ledger.Memory
import ForwardedIp.Proofs.CommandPasses
import ForwardedIp.Proofs.Independence
/-!
# Kernels that ignore the index of a dump

Of a dump of addresses a host keeps the messages of the index that it asked for, and nothing if the
dump breaks off. So a kernel that answers with the addresses of all links serves it as one that
honours the index: whatever is asked of a reconciler, everything that can be seen is the same.
-/
namespace ForwardedIp

section Parts
variable {N α : Type} {R : N → N → Prop}

/-- All that a reconciler can ask of a site looks at a part of it only. -/
structure Site.Within [Site N] (R : N → N → Prop) : Prop where
  interfaces : LooksAt R (Site.interfaces : StateM N (Except Fault (List LiveInterface)))
  addresses (iface : LiveInterface) : LooksAt R (Site.addresses iface)
  bind (iface : LiveInterface) (ip : IpAddr) (prefixLen : Nat) :
    LooksAt R (Site.bind iface ip prefixLen)
  unbind (iface : LiveInterface) (ip : IpAddr) : LooksAt R (Site.unbind iface ip)
  readRecord (key : String) : LooksAt R (Site.readRecord key)
  writeRecord (key : String) (ips : List String) : LooksAt R (Site.writeRecord key ips)
  flush : LooksAt R (Site.flush : StateM N (Except Fault Unit))

namespace Site.Within
variable [Site N] (h : Site.Within R)
include h

theorem bindText (iface : LiveInterface) (text : String) :
    LooksAt R (Visit.bindText (N := N) iface text) := by
  unfold Visit.bindText
  split
  · exact (h.bind iface _ _).bind fun answer => looksAt_pure _
  · exact looksAt_pure _

theorem unbindText (iface : LiveInterface) (text : String) :
    LooksAt R (Visit.unbindText (N := N) iface text) := by
  unfold Visit.unbindText
  split
  · exact (h.unbind iface _).bind fun answer => looksAt_pure _
  · exact looksAt_pure _

theorem carryOut (mac : Mac) (iface : LiveInterface) (bound recorded declared : List String) :
    LooksAt R (Visit.carryOut (N := N) mac iface bound recorded declared) :=
  (LooksAt.mapM (h.bindText iface) _).bind fun _ =>
    (LooksAt.mapM (h.unbindText iface) _).bind fun _ =>
      (h.writeRecord _ _).bind fun _ => looksAt_pure _

theorem recallOwned (mac : Mac) : LooksAt R (Visit.recallOwned (N := N) mac) := by
  refine (h.readRecord mac.text).bind fun answer => ?_
  split <;> exact looksAt_pure _

theorem visit (live : List LiveInterface) (d : DeclaredInterface) :
    LooksAt R (Visit.run (N := N) live d) := by
  unfold Visit.run
  split
  · exact looksAt_pure _
  · split
    · exact looksAt_pure _
    · refine (h.addresses _).bind fun found => ?_
      split
      · exact looksAt_pure _
      · refine (h.recallOwned _).bind fun recalled => ?_
        split
        · exact looksAt_pure _
        · exact (h.carryOut _ _ _ _ _).bind fun w => looksAt_pure _

theorem apply (e : Engine) (s : Snapshot) : LooksAt R (e.apply (N := N) s) := by
  refine h.interfaces.bind fun listed => ?_
  split
  · exact looksAt_pure _
  · exact (LooksAt.mapM (h.visit _) _).bind fun visits => looksAt_pure _

/-- A command looks at no more than the requests to the site do. -/
theorem perform (e : Engine) (c : Command) : LooksAt R (e.perform (N := N) c) := by
  intro n n' hn
  cases hpass : e.pass? c with
  | none =>
    rw [Engine.perform_idle hpass, Engine.perform_idle hpass]
    exact ⟨rfl, hn⟩
  | some pass =>
    obtain ⟨e', s⟩ := pass
    obtain ⟨hstep, hsite⟩ := h.apply e' s hn
    rw [Engine.perform_pass hpass, Engine.perform_pass hpass, hstep]
    exact ⟨rfl, hsite⟩

end Site.Within

/-- Observed sites of which the same was asked with the same answers. -/
structure Observed.Same (R : N → N → Prop) (o o' : Observed N) : Prop where
  calls_eq : o.calls = o'.calls
  site : R o.site o'.site

theorem LooksAt.noting {x : StateM N α} (hx : LooksAt R x) (call : α → Call) :
    LooksAt (Observed.Same R) (Observed.noting x call) := by
  intro o o' h
  obtain ⟨hanswer, hsite⟩ := hx h.site
  refine ⟨hanswer, ?_, hsite⟩
  show o.calls ++ [call (x.run o.site).1] = o'.calls ++ [call (x.run o'.site).1]
  rw [h.calls_eq, hanswer]

theorem Site.Within.observed [Site N] (h : Site.Within R) : Site.Within (Observed.Same R) where
  interfaces := h.interfaces.noting _
  addresses iface := (h.addresses iface).noting _
  bind iface ip prefixLen := (h.bind iface ip prefixLen).noting _
  unbind iface ip := (h.unbind iface ip).noting _
  readRecord key := (h.readRecord key).noting _
  writeRecord key ips := (h.writeRecord key ips).noting _
  flush := h.flush.noting _

end Parts

/-- Kernels that serve a host alike: they list the same links, their dumps for an index break off
alike or have the same messages of that index, and they carry out changes alike. -/
structure RouteKernel.Alike {K : Type} [RouteKernel K] (R : K → K → Prop) : Prop where
  links {k k' : K} : R k k' →
    (RouteKernel.dumpLinks k).collect = (RouteKernel.dumpLinks k').collect
  addresses {k k' : K} : R k k' → ∀ index,
    (RouteKernel.dumpAddresses k index).collect.map (List.filter (·.index = index)) =
      (RouteKernel.dumpAddresses k' index).collect.map (List.filter (·.index = index))
  add (index : Nat) (ip : IpAddr) (prefixLen : Nat) :
    LooksAt R (RouteKernel.add index ip prefixLen)
  delete (m : AddressMessage) : LooksAt R (RouteKernel.delete m)

namespace NetlinkHost
variable {K L : Type} [RouteKernel K] {R : K → K → Prop}

/-- Machines whose kernels are related, with the same ledger. -/
structure Served (R : K → K → Prop) (m m' : Machine (NetlinkHost K) L) : Prop where
  kernel : R m.host.kernel m'.host.kernel
  ledger_eq : m.ledger = m'.ledger

section Hosts
variable (hR : RouteKernel.Alike R)
include hR

theorem messages_eq {h h' : NetlinkHost K} (hk : R h.kernel h'.kernel) (index : Nat) :
    h.messages index = h'.messages index := by
  have hdump := hR.addresses hk index
  unfold messages
  cases hfound : (RouteKernel.dumpAddresses h.kernel index).collect with
  | ok ms =>
    cases hfound' : (RouteKernel.dumpAddresses h'.kernel index).collect with
    | ok ms' =>
      rw [hfound, hfound'] at hdump
      exact congrArg Except.ok (Except.ok.inj hdump)
    | error e =>
      rw [hfound, hfound'] at hdump
      cases hdump
  | error e =>
    cases hfound' : (RouteKernel.dumpAddresses h'.kernel index).collect with
    | ok ms' =>
      rw [hfound, hfound'] at hdump
      cases hdump
    | error e' =>
      rw [hfound, hfound'] at hdump
      obtain rfl := Except.error.inj hdump
      rfl

omit [RouteKernel K] hR in
theorem looksAt_request {change : StateM K (Except String Unit)} (hchange : LooksAt R change)
    (what : String) (iface : LiveInterface) :
    LooksAt (fun h h' : NetlinkHost K => R h.kernel h'.kernel) (request change what iface) := by
  intro h h' hk
  obtain ⟨hanswer, hkernel⟩ := hchange hk
  refine ⟨?_, hkernel⟩
  show ((change.run h.kernel).1.mapError _) = ((change.run h'.kernel).1.mapError _)
  rw [hanswer]

theorem looksAt_interfaces : LooksAt (fun h h' : NetlinkHost K => R h.kernel h'.kernel)
    (HostBackend.interfaces : StateM (NetlinkHost K) (Except Fault (List LiveInterface))) := by
  intro h h' hk
  refine ⟨?_, hk⟩
  simp only [HostBackend.interfaces, StateT.run, hR.links hk]

theorem looksAt_addresses (iface : LiveInterface) :
    LooksAt (fun h h' : NetlinkHost K => R h.kernel h'.kernel) (HostBackend.addresses iface) := by
  intro h h' hk
  refine ⟨?_, hk⟩
  simp only [HostBackend.addresses, StateT.run, messages_eq hR hk]

theorem looksAt_unbind (iface : LiveInterface) (ip : IpAddr) :
    LooksAt (fun h h' : NetlinkHost K => R h.kernel h'.kernel) (HostBackend.unbind iface ip) := by
  intro h h' hk
  simp only [HostBackend.unbind, StateT.run, messages_eq hR hk]
  split
  · exact ⟨rfl, hk⟩
  · split
    · exact ⟨rfl, hk⟩
    · next m hm => exact looksAt_request (hR.delete m) _ iface hk

end Hosts

omit [RouteKernel K] in
theorem looksAt_onHost {α : Type} {x : StateM (NetlinkHost K) α}
    (hx : LooksAt (fun h h' : NetlinkHost K => R h.kernel h'.kernel) x) :
    LooksAt (Served (L := L) R) (Machine.onHost x) := fun _ _ hm =>
  ⟨(hx hm.kernel).1, (hx hm.kernel).2, hm.ledger_eq⟩

omit [RouteKernel K] in
theorem looksAt_onLedger {α : Type} (x : StateM L α) :
    LooksAt (Served (K := K) R) (Machine.onLedger x) := by
  rintro ⟨host, ledger⟩ ⟨host', ledger'⟩ ⟨hkernel, hledger⟩
  obtain rfl : ledger = ledger' := hledger
  exact ⟨rfl, hkernel, rfl⟩

/-- A machine sees of its kernel no more than kernels that serve alike have in common. -/
theorem within [LedgerStore L] (hR : RouteKernel.Alike R) : Site.Within (Served (L := L) R) where
  interfaces := looksAt_onHost (looksAt_interfaces hR)
  addresses iface := looksAt_onHost (looksAt_addresses hR iface)
  bind iface ip prefixLen := looksAt_onHost (looksAt_request (hR.add _ ip prefixLen) _ iface)
  unbind iface ip := looksAt_onHost (looksAt_unbind hR iface ip)
  readRecord _ := looksAt_onLedger _
  writeRecord _ _ := looksAt_onLedger _
  flush := looksAt_onLedger _

end NetlinkHost

/-- What may happen to a reconciler and its site: it is asked for something, its ledger is flushed,
another reconciler takes its place, or somebody else changes something. -/
inductive Episode (N : Type) where
  | command (c : Command)
  | flush
  | restart (overrides : LocalConfig)
  | outside (change : N → N)

/-- Outside changes do the same to sites that have something in common. -/
def Episode.Respects {N : Type} (R : N → N → Prop) : Episode N → Prop
  | .outside change => ∀ n n', R n n' → R (change n) (change n')
  | _ => True

/-- What can be seen of an episode, and what is there after it. -/
structure Sight (N : Type) where
  answer : Option Answer
  events : List Event
  engine : Engine
  site : Observed N

/-- Two episodes that look the same, but for a part of the site. -/
structure Sight.Same {N : Type} (R : N → N → Prop) (v v' : Sight N) : Prop where
  answer_eq : v.answer = v'.answer
  events_eq : v.events = v'.events
  engine_eq : v.engine = v'.engine
  site : v.site.Same R v'.site

namespace Engine
variable {N : Type} [Site N] {R : N → N → Prop}

def sight (e : Engine) (o : Observed N) : Episode N → Sight N
  | .command c =>
      let (step, o') := (e.perform c).run o
      ⟨some step.answer, step.events, step.engine, o'⟩
  -- what a flush answers is noted among the calls
  | .flush => ⟨none, [], e, ((Site.flush : StateM (Observed N) (Except Fault Unit)).run o).2⟩
  | .restart overrides => ⟨none, [], fresh overrides, o⟩
  | .outside change => ⟨none, [], e, { o with site := change o.site }⟩

def sights (e : Engine) (o : Observed N) : List (Episode N) → List (Sight N)
  | [] => []
  | x :: xs => e.sight o x :: (e.sight o x).engine.sights (e.sight o x).site xs

theorem sight_same (h : Site.Within R) (e : Engine) {o o' : Observed N} (ho : o.Same R o')
    {x : Episode N} (hx : x.Respects R) : (e.sight o x).Same R (e.sight o' x) := by
  cases x with
  | command c =>
    obtain ⟨hstep, hsite⟩ := h.observed.perform e c ho
    exact ⟨congrArg (fun step : Step Answer => some step.answer) hstep, congrArg Step.events hstep,
      congrArg Step.engine hstep, hsite⟩
  | flush => exact ⟨rfl, rfl, rfl, (h.observed.flush ho).2⟩
  | restart overrides => exact ⟨rfl, rfl, rfl, ho⟩
  | outside change => exact ⟨rfl, rfl, rfl, ho.calls_eq, hx _ _ ho.site⟩

/-- Runs from sites that have in common all that is looked at look the same throughout. -/
theorem sights_same (h : Site.Within R) (e : Engine) {o o' : Observed N} (ho : o.Same R o')
    {xs : List (Episode N)} (hxs : ∀ x ∈ xs, x.Respects R) :
    List.Forall₂ (Sight.Same R) (e.sights o xs) (e.sights o' xs) := by
  induction xs generalizing e o o' with
  | nil => exact .nil
  | cons x xs ih =>
    have hfirst := sight_same h e ho (hxs x List.mem_cons_self)
    refine .cons hfirst ?_
    rw [← hfirst.engine_eq]
    exact ih _ hfirst.site fun y hy => hxs y (List.mem_cons_of_mem x hy)

end Engine

namespace Kernel
variable {k k' : Kernel}

/-- The kernel that ignores the index of a dump, or honours it. -/
def ignoring (ignores : Bool) (k : Kernel) : Kernel :=
  { k with switches.ignoresFilter := ignores }

/-- Kernels with the same tables, failures and requests so far. -/
structure SameButFilter (k k' : Kernel) : Prop where
  exists_ignoring : ∃ ignores, k' = k.ignoring ignores

theorem sameButFilter_ignoring (k : Kernel) (b b' : Bool) :
    (k.ignoring b).SameButFilter (k.ignoring b') := ⟨b', rfl⟩

theorem filter_dumpAddresses (k : Kernel) (index : Nat) :
    (k.dumpAddresses index).messages.filter (·.index = index) =
      k.addresses.filter (·.index = index) := by
  unfold dumpAddresses
  dsimp only
  split
  · rfl
  · rw [List.filter_filter]
    simp only [Bool.and_self]

/-- Whatever a kernel answers beyond the index is dropped, also when the dump breaks off. -/
theorem Dump.collect_map_filter {α : Type} (d d' : Dump α) (p : α → Bool)
    (hmessages : d.messages.filter p = d'.messages.filter p) (hfailure : d.failure = d'.failure) :
    d.collect.map (List.filter p) = d'.collect.map (List.filter p) := by
  unfold Dump.collect
  rw [hfailure]
  cases d'.failure with
  | none => exact congrArg Except.ok hmessages
  | some error => rfl

theorem add_ignoring (b : Bool) (index : Nat) (ip : IpAddr) (prefixLen : Nat) (k : Kernel) :
    add index ip prefixLen (k.ignoring b) =
      ((add index ip prefixLen k).1, (add index ip prefixLen k).2.ignoring b) := by
  cases hrefused : k.switches.addsFail.contains ip with
  | true => simp only [add, note, ignoring, hrefused, if_true]
  | false =>
    cases hthere : k.addresses.contains (messageOf index ip prefixLen) <;>
      simp only [add, note, ignoring, hrefused, hthere, Bool.false_eq_true, if_true, if_false]

theorem delete_ignoring (b : Bool) (m : AddressMessage) (k : Kernel) :
    delete m (k.ignoring b) = ((delete m k).1, (delete m k).2.ignoring b) := by
  cases hrefused : m.firstIp?.any k.switches.deletesFail.contains with
  | true => simp only [delete, note, ignoring, hrefused, if_true]
  | false =>
    cases hthere : k.addresses.contains m <;>
      simp only [delete, note, ignoring, hrefused, hthere, Bool.false_eq_true, if_true, if_false]

/-- A kernel serves a host alike whether or not it ignores the index. -/
theorem alike : RouteKernel.Alike SameButFilter where
  links := by
    rintro k - ⟨b, rfl⟩
    rfl
  addresses := by
    rintro k - ⟨b, rfl⟩ index
    refine Dump.collect_map_filter _ _ _ ?_ rfl
    exact (filter_dumpAddresses k index).trans (filter_dumpAddresses (k.ignoring b) index).symm
  add index ip prefixLen := by
    rintro k - ⟨b, rfl⟩
    simp only [StateT.run, RouteKernel.add, add_ignoring]
    exact ⟨trivial, b, rfl⟩
  delete m := by
    rintro k - ⟨b, rfl⟩
    simp only [StateT.run, RouteKernel.delete, delete_ignoring]
    exact ⟨trivial, b, rfl⟩

end Kernel

/-- A kernel whose dumps may break off before their end, each time after as many messages as
it pleases. -/
structure BreakingKernel where
  kernel : Kernel
  /-- After how many messages the dump of an index breaks off, given the requests so far. -/
  breaks : List AddressRequest → Nat → Option Nat

namespace BreakingKernel

def dumpAddresses (k : BreakingKernel) (index : Nat) : Kernel.Dump AddressMessage :=
  match k.breaks k.kernel.requests index with
  | none => k.kernel.dumpAddresses index
  | some n => ⟨(k.kernel.dumpAddresses index).messages.take n, some Kernel.interrupted⟩

def change {α : Type} (x : StateM Kernel α) : StateM BreakingKernel α := fun k =>
  let (a, kernel) := x k.kernel
  (a, { k with kernel })

instance : RouteKernel BreakingKernel where
  dumpLinks k := k.kernel.dumpLinks
  dumpAddresses := dumpAddresses
  add index ip prefixLen := change (Kernel.add index ip prefixLen)
  delete m := change (Kernel.delete m)

/-- The same dumps break off, after however many messages. -/
structure SameButFilter (k k' : BreakingKernel) : Prop where
  kernel : k.kernel.SameButFilter k'.kernel
  breaks (requests : List AddressRequest) (index : Nat) :
    (k.breaks requests index).isSome = (k'.breaks requests index).isSome

theorem looksAt_change {α : Type} {x : StateM Kernel α}
    (hx : LooksAt Kernel.SameButFilter x) : LooksAt SameButFilter (change x) := fun _ _ hk =>
  ⟨(hx hk.kernel).1, (hx hk.kernel).2, hk.breaks⟩

theorem alike : RouteKernel.Alike SameButFilter where
  links hk := Kernel.alike.links hk.kernel
  addresses := by
    rintro ⟨k, breaks⟩ ⟨k', breaks'⟩ ⟨hkernel, hbreaks⟩ index
    obtain ⟨b, rfl⟩ := hkernel
    have hsome := hbreaks k.requests index
    simp only [RouteKernel.dumpAddresses, dumpAddresses]
    have hrequests : (k.ignoring b).requests = k.requests := rfl
    rw [hrequests]
    -- a dump that breaks off gives nothing, whatever came before
    cases hbreak : breaks k.requests index with
    | none =>
      cases hbreak' : breaks' k.requests index with
      | none => exact Kernel.alike.addresses ⟨b, rfl⟩ index
      | some n' => simp [hbreak, hbreak'] at hsome
    | some n =>
      cases hbreak' : breaks' k.requests index with
      | none => simp [hbreak, hbreak'] at hsome
      | some n' => rfl
  add index ip prefixLen := looksAt_change (Kernel.alike.add index ip prefixLen)
  delete m := looksAt_change (Kernel.alike.delete m)

end BreakingKernel

namespace NetlinkHost

/-- Whatever happens to a reconciler, a kernel that answers every dump with the addresses of all
links is not told from one that honours the index: every answer and event is the same, the same was
asked with the same answers, and the ledger and the kernel's tables and requests are the same after
each episode. So it is if dumps break off, each after whatever messages came before. -/
theorem filter_unnoticed {L : Type} [LedgerStore L] (e : Engine) (l : L) :
    (∀ (k : Kernel) (xs : List (Episode (Machine (NetlinkHost Kernel) L))),
      (∀ x ∈ xs, x.Respects (Served Kernel.SameButFilter)) →
        List.Forall₂ (Sight.Same (Served Kernel.SameButFilter))
          (e.sights { site := ⟨⟨k.ignoring false⟩, l⟩ } xs)
          (e.sights { site := ⟨⟨k.ignoring true⟩, l⟩ } xs)) ∧
      ∀ (k : Kernel) (breaks breaks' : List AddressRequest → Nat → Option Nat),
        (∀ requests index,
          (breaks requests index).isSome = (breaks' requests index).isSome) →
        ∀ xs : List (Episode (Machine (NetlinkHost BreakingKernel) L)),
          (∀ x ∈ xs, x.Respects (Served BreakingKernel.SameButFilter)) →
            List.Forall₂ (Sight.Same (Served BreakingKernel.SameButFilter))
              (e.sights { site := ⟨⟨⟨k.ignoring false, breaks⟩⟩, l⟩ } xs)
              (e.sights { site := ⟨⟨⟨k.ignoring true, breaks'⟩⟩, l⟩ } xs) := by
  constructor
  · intro k xs hxs
    have hstart := Kernel.sameButFilter_ignoring k false true
    refine Engine.sights_same (within Kernel.alike) e ?_ hxs
    exact ⟨rfl, hstart, rfl⟩
  · intro k breaks breaks' hbreaks xs hxs
    have hstart := Kernel.sameButFilter_ignoring k false true
    refine Engine.sights_same (within BreakingKernel.alike) e ?_ hxs
    exact ⟨rfl, ⟨hstart, hbreaks⟩, rfl⟩

/-- A kernel with two links, on both of which 10.0.0.5 is bound. -/
def shared : Kernel where
  links := [⟨2, [.name "eth0", .hardware [2, 0, 0, 0, 0, 10]]⟩,
    ⟨3, [.name "eth1", .hardware [2, 0, 0, 0, 0, 11]]⟩]
  addresses := [Kernel.messageOf 2 Machine.tenFive 32, Kernel.messageOf 3 Machine.tenFive 32]

/-- Links are no longer listed. -/
def unlist (m : Machine (NetlinkHost Kernel) MemoryLedger) :
    Machine (NetlinkHost Kernel) MemoryLedger :=
  { m with host.kernel.switches.linksFail := true }

theorem unlist_respects :
    (Episode.outside unlist).Respects (Served Kernel.SameButFilter) := by
  rintro ⟨⟨k⟩, l⟩ ⟨⟨-⟩, -⟩ ⟨⟨b, rfl⟩, rfl⟩
  exact ⟨⟨b, rfl⟩, rfl⟩

/-- The address is withdrawn from the second link, and then nothing can be listed any more. -/
def withdrawal : List (Episode (Machine (NetlinkHost Kernel) MemoryLedger)) :=
  [.command (.reconcile { interfaces := [⟨"02:00:00:00:00:0b", ["10.0.0.5"]⟩] }),
    .command (.reconcile { interfaces := [⟨"02:00:00:00:00:0b", []⟩] }),
    .outside unlist, .command (.reconcile {})]

theorem withdrawal_respects : ∀ x ∈ withdrawal, x.Respects (Served Kernel.SameButFilter) := by
  simp only [withdrawal, List.forall_mem_cons]
  exact ⟨trivial, trivial, unlist_respects, trivial, by simp⟩

/-- Dumps of the first link break off after some messages. -/
def breakAfter (n : Nat) (_ : List AddressRequest) (index : Nat) : Option Nat :=
  if index = 2 then some n else none

/-- Nothing is declared on the first link. -/
def clearing {K : Type} : List (Episode (Machine (NetlinkHost K) MemoryLedger)) :=
  [.command (.reconcile { interfaces := [⟨"02:00:00:00:00:0a", []⟩] })]

/-- The kernel that ignores the index is asked to delete the message of the second link, and one
whose dumps of the first link break off late is not told from one where they break off at once. -/
theorem withdrawal_unnoticed :
    let e : Engine := {}
    let l : MemoryLedger := {}
    (List.Forall₂ (Sight.Same (Served Kernel.SameButFilter))
        (e.sights { site := ⟨⟨shared.ignoring false⟩, l⟩ } withdrawal)
        (e.sights { site := ⟨⟨shared.ignoring true⟩, l⟩ } withdrawal) ∧
      (e.sights { site := ⟨⟨shared.ignoring true⟩, l⟩ } withdrawal).map
        (·.site.site.host.kernel.requests) =
          [[], [.delete (Kernel.messageOf 3 Machine.tenFive 32)],
            [.delete (Kernel.messageOf 3 Machine.tenFive 32)],
            [.delete (Kernel.messageOf 3 Machine.tenFive 32)]]) ∧
      List.Forall₂ (Sight.Same (Served BreakingKernel.SameButFilter))
        (e.sights { site := ⟨⟨⟨shared.ignoring false, breakAfter 0⟩⟩, l⟩ } clearing)
        (e.sights { site := ⟨⟨⟨shared.ignoring true, breakAfter 1⟩⟩, l⟩ } clearing) := by
  intro e l
  refine ⟨⟨(filter_unnoticed e l).1 shared withdrawal withdrawal_respects,
    by decide +kernel⟩, ?_⟩
  refine (filter_unnoticed e l).2 shared _ _ (fun requests index => ?_) clearing ?_
  · unfold breakAfter
    split <;> rfl
  · simp [clearing, Episode.Respects]

end NetlinkHost
end ForwardedIp
