import ForwardedIp.Proofs.Runs
/-!
# Nothing that was bound is forgotten

The record of a hardware address is written anew by every visit, from what is wanted and from what
could not be removed. An address that the manager bound stays in it as long as it stays bound: a
visit that still wants it finds it bound, and one that does not either removes it or keeps it
recorded. The visits of other interfaces touch neither the record nor what is bound.
-/
namespace ForwardedIp

open RecordedSite MemorySite

/-- Every forwarded address of a snapshot that denotes an IP is in printed form. -/
def Snapshot.Printed (s : Snapshot) : Prop := ∀ d ∈ s.interfaces, ForwardedIp.Printed d.forwardedIps

instance (s : Snapshot) : Decidable s.Printed :=
  inferInstanceAs (Decidable (∀ d ∈ s.interfaces, ForwardedIp.Printed d.forwardedIps))

/-- Interfaces are told apart by their index, and by their hardware address if they have one. -/
structure Distinct (live : List LiveInterface) : Prop where
  index_inj {i j : LiveInterface} : i ∈ live → j ∈ live → i.index = j.index → i = j
  mac_inj {i j : LiveInterface} {mac : Mac} :
    i ∈ live → j ∈ live → i.mac = some mac → j.mac = some mac → i = j

namespace Visit.Reconciliation
variable {N : Type} [Site N] {live : List LiveInterface} {d : DeclaredInterface} {n n' : N}
  {w : Work} {ip : IpAddr} {a : Attempt}

/-- What a visit binds enters the new record under its printed form. -/
theorem bound_mem_next (r : Reconciliation live d n w n') (hprinted : Printed d.forwardedIps)
    (ha : a ∈ w.binds) (hdid : a.Did ip) : ip.text ∈ w.next := by
  obtain ⟨hwanted, -⟩ := r.bind_mem ha
  have htext : a.ip = ip.text := r.bind_printed hprinted ha hdid.1
  rw [htext] at hwanted
  refine r.mem_next.mpr (.inl ⟨hwanted, fun b hb hip => ?_⟩)
  have heq : b = a := r.bind_unique hb ha (hip.trans htext.symm)
  rw [heq]
  exact Attempt.failed_eq_false.mpr hdid.2

variable [MemorySite N]

/-- What is in the record counts as owned, unless the read misses the record. -/
theorem mem_recorded (r : Reconciliation live d n w n')
    (hread : ∀ text, r.answer = .error (.notFound text) → record n w.mac.text = none)
    (h : ip.text ∈ (record n w.mac.text).getD []) : ip.text ∈ w.recorded := by
  have hrecorded := r.recorded_eq
  cases hanswer : r.answer with
  | ok entries =>
    rw [r.recorded_of_ok hanswer]
    exact List.mem_filter.mpr ⟨h, IpAddr.isIp_text ip⟩
  | error fault =>
    rw [hanswer] at hrecorded
    simp only [recalled] at hrecorded
    split at hrecorded
    · next hfault =>
      obtain ⟨text, rfl⟩ := (Fault.isNotFound_iff fault).mp hfault
      rw [hread text hanswer] at h
      cases h
    · cases hrecorded

/-- An owned address that is bound stays in the record unless the visit unbinds it. -/
theorem owned_mem_next (r : Reconciliation live d n w n')
    (hbound : .host ip ∈ bound n w.iface.index) (howned : ip.text ∈ w.recorded)
    (hkept : ∀ a ∈ w.unbinds, ¬ a.Did ip) : ip.text ∈ w.next := by
  have hread : ip.text ∈ w.bound := r.text_mem_bound.mpr hbound
  rw [r.mem_next]
  by_cases hwanted : ip.text ∈ w.wanted
  · refine .inl ⟨hwanted, fun a ha hip => ?_⟩
    have hunread := (r.bind_mem ha).2
    rw [hip] at hunread
    exact absurd hread hunread
  · obtain ⟨a, ha, hip⟩ := r.exists_unbind hread howned hwanted
    refine .inr ⟨a, ha, ?_, hip⟩
    have hparse : IpAddr.parse? a.ip = some ip := by rw [hip, IpAddr.parse?_text]
    cases hfailed : a.failed with
    | true => rfl
    | false => exact absurd ⟨hparse, Attempt.failed_eq_false.mp hfailed⟩ (hkept a ha)

/-- If what is bound of an IP is recorded before a visit, it is recorded after it. -/
theorem host_mem_next (r : Reconciliation live d n w n') (hprinted : Printed d.forwardedIps)
    (hread : ∀ text, r.answer = .error (.notFound text) → record n w.mac.text = none)
    (hbefore : .host ip ∈ bound n w.iface.index → ip.text ∈ (record n w.mac.text).getD [])
    (hafter : .host ip ∈ bound n' w.iface.index) : ip.text ∈ w.next := by
  obtain ⟨hbound | ⟨a, ha, other, hdid, hhost⟩, hkept⟩ := r.mem_bound.mp hafter
  · exact r.owned_mem_next hbound (r.mem_recorded hread (hbefore hbound)) hkept
  · have hip : ip = other := congrArg LiveAddress.ip hhost
    subst hip
    exact r.bound_mem_next hprinted ha hdid

end Visit.Reconciliation

namespace Passage
variable {N : Type} [Site N] [MemorySite N]

/-- What is bound of an IP on an interface is in the record of a hardware address. -/
def Recorded (iface : LiveInterface) (mac : Mac) (ip : IpAddr) (n : N) : Prop :=
  .host ip ∈ bound n iface.index → ip.text ∈ (record n mac.text).getD []

theorem Recorded.congr {iface : LiveInterface} {mac : Mac} {ip : IpAddr} {n n' : N}
    (h : Recorded iface mac ip n) (hrecord : record n' mac.text = record n mac.text)
    (hbound : bound n' iface.index = bound n iface.index) : Recorded iface mac ip n' := by
  unfold Recorded
  rw [hrecord, hbound]
  exact h

structure SameState (n n' : N) : Prop where
  record_eq : record n' = record n
  listed_eq : listed n' = listed n
  bound_eq : bound n' = bound n

theorem between_sameState : Between (SameState : N → N → Prop) where
  refl _ := ⟨rfl, rfl, rfl⟩
  trans h h' := ⟨h'.record_eq.trans h.record_eq, h'.listed_eq.trans h.listed_eq,
    h'.bound_eq.trans h.bound_eq⟩
  listed h := ⟨interfaces_record h, (interfaces_host h).1, (interfaces_host h).2⟩

/-- A passage over the interfaces `live` whose declaration is in printed form, whose writes succeed
and whose reads miss no record. -/
structure Regular (live : List LiveInterface) (p : Passage (Observed N)) : Prop where
  goes : p.Goes
  live_eq : p.live = live
  printed : Printed p.declared.forwardedIps
  saved : ∀ key ips f, .writeRecord key ips (.error f) ∉ p.calls
  read : ∀ key text, .readRecord key (.error (.notFound text)) ∈ p.calls →
    record p.before key = none

variable {live : List LiveInterface} {p : Passage (Observed N)} {w : Work} {iface : LiveInterface}
  {mac : Mac} {ip : IpAddr}

theorem Regular.record_after (h : p.Regular live)
    (r : Visit.Reconciliation p.live p.declared p.before w p.after) :
    record p.after w.mac.text = some w.next := by
  cases hsaved : w.saved with
  | ok u => exact r.record_of_saved hsaved
  | error f =>
    have hnever := h.saved w.mac.text w.next f
    rw [calls_of_reconciliation r, ← hsaved] at hnever
    exact absurd r.write_mem_calls hnever

theorem Regular.record_of_notFound (h : p.Regular live)
    (r : Visit.Reconciliation p.live p.declared p.before w p.after) {text : String}
    (hanswer : r.answer = .error (.notFound text)) : record p.before w.mac.text = none := by
  refine h.read w.mac.text text ?_
  rw [calls_of_reconciliation r, ← hanswer]
  exact r.read_mem_calls

/-- A passage keeps what is bound recorded. -/
theorem Regular.recorded (h : p.Regular live) (hdistinct : Distinct live) (hiface : iface ∈ live)
    (hmac : iface.mac = some mac) (hbefore : Recorded iface mac ip p.before) :
    Recorded iface mac ip p.after := by
  rcases Visit.Goes.unchanged_or_reconciled h.goes with ⟨hrecord, hbound⟩ | ⟨w, r, -⟩
  · exact hbefore.congr (by rw [hrecord]) (by rw [hbound])
  · have hmem : w.iface ∈ live := h.live_eq ▸ r.iface_mem
    by_cases heq : iface = w.iface
    · subst heq
      have hmac' : w.mac = mac := Option.some.inj (r.iface_mac.symm.trans hmac)
      subst hmac'
      intro hafter
      rw [h.record_after r]
      exact r.host_mem_next h.printed (fun text => h.record_of_notFound r) hbefore hafter
    · -- Another interface has another index and another key.
      have hindex : iface.index ≠ w.iface.index := fun hindex =>
        heq (hdistinct.index_inj hiface hmem hindex)
      have hkey : mac.text ≠ w.mac.text := fun hkey =>
        heq (hdistinct.mac_inj hiface hmem hmac (Mac.text_injective hkey ▸ r.iface_mac))
      exact hbefore.congr (r.record_of_ne hkey) (r.bound_of_ne hindex)

theorem Regular.recorded_of_bind (h : p.Regular live) {k : Nat}
    (hcall : .bind iface ip k (.ok ()) ∈ p.calls) :
    iface ∈ live ∧ ∃ mac, iface.mac = some mac ∧ Recorded iface mac ip p.after := by
  obtain ⟨w, ⟨r⟩⟩ := h.goes.reconciliation hcall rfl
  rw [calls_of_reconciliation r] at hcall
  obtain ⟨rfl, -, a, ha, hdid⟩ := r.bind_of_call hcall
  refine ⟨h.live_eq ▸ r.iface_mem, w.mac, r.iface_mac, fun _ => ?_⟩
  rw [h.record_after r]
  exact r.bound_mem_next h.printed ha hdid

theorem Chain.recorded {n n' : Observed N} {ps : List (Passage (Observed N))}
    (h : Chain SameState n ps n') (hregular : ∀ p ∈ ps, p.Regular live)
    (hdistinct : Distinct live) (hiface : iface ∈ live) (hmac : iface.mac = some mac)
    (hbefore : Recorded iface mac ip n) : Recorded iface mac ip n' := by
  induction h with
  | nil hlast => exact hbefore.congr (by rw [hlast.record_eq]) (by rw [hlast.bound_eq])
  | @cons n n' p ps hfirst hgoes rest ih =>
    obtain ⟨hp, hps⟩ := List.forall_mem_cons.mp hregular
    have hstart : Recorded iface mac ip p.before :=
      hbefore.congr (by rw [hfirst.record_eq]) (by rw [hfirst.bound_eq])
    exact ih hps (hp.recorded hdistinct hiface hmac hstart)

theorem Chain.listed_eq {R : N → N → Prop} {n n' : N} {ps : List (Passage N)}
    (hR : ∀ {n n'}, R n n' → listed n' = listed n) (h : Chain R n ps n') :
    listed n' = listed n := by
  induction h with
  | nil hlast => exact hR hlast
  | cons hfirst hgoes rest ih => rw [ih, Visit.Goes.listed_eq hgoes, hR hfirst]

end Passage

namespace Exclusion

theorem mem_of_mem_keep {s : Settings} {ips : List String} {t : String} (h : t ∈ keep s ips) :
    t ∈ ips := by
  unfold keep at h
  split at h
  · exact (List.mem_filter.mp h).1
  · cases h
  · exact h

theorem printed_of_mem_apply {s : Settings} {interfaces : List DeclaredInterface}
    {d : DeclaredInterface} (hprinted : ∀ i ∈ interfaces, Printed i.forwardedIps)
    (hd : d ∈ apply s interfaces) : Printed d.forwardedIps := by
  obtain ⟨i, hi, rfl⟩ := List.mem_map.mp hd
  exact fun t ht => hprinted i hi t (mem_of_mem_keep ht)

end Exclusion

variable {N : Type} [Site N] [MemorySite N]

/-- A turn keeps an address recorded that is still bound after it. -/
theorem Turn.recorded {t : Turn N} {live : List LiveInterface} {iface : LiveInterface} {mac : Mac}
    {ip : IpAddr} (hregular : ∀ p ∈ t.passages, p.Regular live) (hdistinct : Distinct live)
    (hout : ∀ change, t.happening = .outside change → ∀ n : N, record (change n) = record n)
    (hiface : iface ∈ live) (hmac : iface.mac = some mac)
    (hbound : .host ip ∈ bound t.finish.site iface.index)
    (hbefore : ip.text ∈ (record t.start.site mac.text).getD []) :
    ip.text ∈ (record t.finish.site mac.text).getD [] := by
  obtain ⟨m, happening⟩ := t
  cases happening with
  | outside change =>
    have hrecord : record (change m.site.site) = record m.site.site := hout change rfl m.site.site
    show ip.text ∈ (record (change m.site.site) mac.text).getD []
    rw [hrecord]
    exact hbefore
  | command c =>
    have hchain := Engine.chain_perform Passage.between_sameState m.engine c m.site
    exact hchain.recorded hregular hdistinct hiface hmac (fun _ => hbefore) hbound

/-- What a turn binds is recorded after it if it is still bound. -/
theorem Turn.recorded_of_bind {t : Turn N} {live : List LiveInterface} {iface : LiveInterface}
    {ip : IpAddr} {k : Nat} (hregular : ∀ p ∈ t.passages, p.Regular live)
    (hdistinct : Distinct live) (hcall : .bind iface ip k (.ok ()) ∈ t.calls) :
    iface ∈ live ∧ ∃ mac, iface.mac = some mac ∧
      Passage.Recorded iface mac ip t.finish.site := by
  obtain ⟨p, hp, hcall⟩ := t.exists_passage hcall rfl
  obtain ⟨hiface, mac, hmac, hpassage⟩ := (hregular p hp).recorded_of_bind hcall
  refine ⟨hiface, mac, hmac, ?_⟩
  obtain ⟨m, happening⟩ := t
  cases happening with
  | outside change => cases hp
  | command c =>
    have hchain : Passage.Chain _ m.site (m.engine.passages c m.site) _ :=
      Engine.chain_perform Passage.between_sameState m.engine c m.site
    obtain ⟨earlier, later, hsplit⟩ := List.append_of_mem hp
    have hlater : ∀ q ∈ later, q.Regular live := fun q hq =>
      hregular q (hsplit ▸ List.mem_append_right _ (List.mem_cons_of_mem p hq))
    rw [show m.engine.passages c m.site = earlier ++ p :: later from hsplit] at hchain
    exact hchain.split.2.2.recorded hlater hdistinct hiface hmac hpassage

namespace Managed

/-- A run keeps an address recorded that is bound after each of its turns. -/
theorem recorded_run {m : Managed N} {hs : List (Happening N)} {live : List LiveInterface}
    {iface : LiveInterface} {mac : Mac} {ip : IpAddr}
    (hregular : ∀ t ∈ m.turns hs, ∀ p ∈ t.passages, p.Regular live) (hdistinct : Distinct live)
    (hout : ∀ change, .outside change ∈ hs → ∀ n : N, record (change n) = record n)
    (hiface : iface ∈ live) (hmac : iface.mac = some mac)
    (hbound : ∀ t ∈ m.turns hs, .host ip ∈ bound t.finish.site iface.index)
    (hbefore : ip.text ∈ (record m.site mac.text).getD []) :
    ip.text ∈ (record (m.run hs).site mac.text).getD [] := by
  induction hs generalizing m with
  | nil => exact hbefore
  | cons h hs ih =>
    obtain ⟨hregular, hregulars⟩ := List.forall_mem_cons.mp hregular
    obtain ⟨hbound, hbounds⟩ := List.forall_mem_cons.mp hbound
    refine ih hregulars (fun change hchange => hout change (List.mem_cons_of_mem _ hchange))
      hbounds ?_
    exact Turn.recorded (t := ⟨m, h⟩) hregular hdistinct
      (fun change hchange => hout change (hchange ▸ List.mem_cons_self)) hiface hmac hbound hbefore

theorem listed_run (m : Managed N) (hs : List (Happening N))
    (hout : ∀ change, .outside change ∈ hs → ∀ n : N, listed (change n) = listed n) :
    listed (m.run hs).site = listed m.site := by
  have hR : Passage.Between fun o o' : Observed N => listed o' = listed o :=
    ⟨fun _ => rfl, fun h h' => h'.trans h, fun h => (interfaces_host h).1⟩
  exact (chain_run hR m hs fun change hchange o => hout change hchange o.site).listed_eq id

theorem regular_of_mem {m : Managed N} {hs : List (Happening N)}
    (hout : ∀ change, .outside change ∈ hs → ∀ n : N, listed (change n) = listed n)
    (hprinted : ∀ c s, .command c ∈ hs → c.snapshot? = some s → s.Printed)
    (hwrites : ∀ key ips f, .writeRecord key ips (.error f) ∉ m.calls hs)
    (hreads : ∀ p ∈ m.passages hs, ∀ key text,
      .readRecord key (.error (.notFound text)) ∈ p.calls → record p.before key = none)
    {t : Turn N} (ht : t ∈ m.turns hs) {p : Passage (Observed N)} (hp : p ∈ t.passages) :
    p.Regular (listed m.site) := by
  have hmem : p ∈ m.passages hs := List.mem_flatMap.mpr ⟨t, ht, hp⟩
  obtain ⟨before, since, hsplit⟩ := List.append_of_mem ht
  obtain ⟨past, future, rfl, hstart, -, -⟩ := turns_split hsplit
  have hlisted : listed t.start.site = listed m.site := by
    rw [hstart]
    exact m.listed_run past fun change hchange => hout change (List.mem_append_left _ hchange)
  have hgoes : p.Goes := Turn.goes_of_mem hp
  obtain ⟨start, happening⟩ := t
  cases happening with
  | outside change => cases hp
  | command c =>
    obtain ⟨e, s, hpass, hdeclared, o, hlive⟩ := Engine.mem_passages hp
    have hcommand : .command c ∈ past ++ .command c :: future := by simp
    exact
      { goes := hgoes
        live_eq := (interfaces_ok hlive).trans hlisted
        printed := Exclusion.printed_of_mem_apply
          (hprinted c s hcommand (Engine.snapshot?_of_pass? hpass)) hdeclared
        saved := fun key ips f hcall => hwrites key ips f (calls_of_mem hmem hcall rfl)
        read := hreads p hmem }

/-- Nothing that the manager bound is forgotten: on a host in memory whose interfaces stay as they
are, with declarations in printed form, writes that succeed and reads that miss no record, an IP
that a turn bound and that is bound after every turn since is in the record of the interface. -/
theorem bound_stays_recorded (m : Managed N) (hs : List (Happening N))
    (hdistinct : Distinct (listed m.site))
    (hout : ∀ change, .outside change ∈ hs →
      ∀ n : N, record (change n) = record n ∧ listed (change n) = listed n)
    (hprinted : ∀ c s, .command c ∈ hs → c.snapshot? = some s → s.Printed)
    (hwrites : ∀ key ips f, .writeRecord key ips (.error f) ∉ m.calls hs)
    (hreads : ∀ p ∈ m.passages hs, ∀ key text,
      .readRecord key (.error (.notFound text)) ∈ p.calls → record p.before key = none)
    (before since : List (Turn N)) (t : Turn N) (hsplit : m.turns hs = before ++ t :: since)
    {iface : LiveInterface} {ip : IpAddr} {k : Nat} (hbind : .bind iface ip k (.ok ()) ∈ t.calls)
    (hbound : ∀ u ∈ t :: since, .host ip ∈ bound u.finish.site iface.index) :
    ∃ mac entries, iface.mac = some mac ∧ record (m.run hs).site mac.text = some entries ∧
      ip.text ∈ entries := by
  have hregular : ∀ u ∈ m.turns hs, ∀ p ∈ u.passages, p.Regular (listed m.site) := fun u hu p hp =>
    regular_of_mem (fun change hchange n => (hout change hchange n).2) hprinted hwrites hreads hu hp
  rw [hsplit] at hregular
  obtain ⟨hturn, hturns⟩ := List.forall_mem_cons.mp (List.forall_mem_append.mp hregular).2
  obtain ⟨hfinish, hsince⟩ := List.forall_mem_cons.mp hbound
  obtain ⟨hiface, mac, hmac, hrecorded⟩ := t.recorded_of_bind hturn hdistinct hbind
  obtain ⟨past, future, rfl, hstart, -, rfl⟩ := turns_split hsplit
  have hrun : m.run (past ++ t.happening :: future) = t.finish.run future := by
    rw [Turn.finish, hstart]
    simp [run, List.foldl_append]
  have hmem : ip.text ∈ (record (t.finish.run future).site mac.text).getD [] := by
    refine recorded_run hturns hdistinct ?_ hiface hmac hsince (hrecorded hfinish)
    intro change hchange n
    exact (hout change (List.mem_append_right _ (List.mem_cons_of_mem _ hchange)) n).1
  rw [hrun]
  cases hentries : record (t.finish.run future).site mac.text with
  | none =>
    rw [hentries] at hmem
    cases hmem
  | some entries =>
    rw [hentries] at hmem
    exact ⟨mac, entries, hmac, hentries, hmem⟩

/-- A fresh reconciler on a machine with one interface. -/
def keeper : Managed (Machine MemoryHost MemoryLedger) where
  engine := Engine.fresh {}
  site := { site := .single "02:00:00:00:00:0a" [] [] }

/-- An address is declared, then it can no longer be removed, then it is withdrawn. -/
def keeperRun : List (Happening (Machine MemoryHost MemoryLedger)) :=
  [.command (.cycle { interfaces := [⟨"02:00:00:00:00:0a", [Machine.tenFive.text]⟩] }),
    .outside fun m => { m with host.faults.unremovable := [Machine.tenFive] },
    .command (.cycle { interfaces := [⟨"02:00:00:00:00:0a", []⟩] })]

theorem distinct_keeper : Distinct (listed keeper.site) where
  index_inj hi hj _ := (List.mem_singleton.mp hi).trans (List.mem_singleton.mp hj).symm
  mac_inj hi hj _ _ := (List.mem_singleton.mp hi).trans (List.mem_singleton.mp hj).symm

theorem printed_keeperRun (c : Command) (s : Snapshot) (hc : .command c ∈ keeperRun)
    (hs : c.snapshot? = some s) : s.Printed := by
  have hkept : Printed [Machine.tenFive.text] := by
    intro t ht ip hip
    cases List.mem_singleton.mp ht
    rw [IpAddr.parse?_text] at hip
    cases hip
    rfl
  simp only [keeperRun, List.mem_cons, Happening.command.injEq, reduceCtorEq, List.not_mem_nil,
    or_false, false_or] at hc
  rcases hc with rfl | rfl
  · cases hs
    intro d hd
    cases List.mem_singleton.mp hd
    exact hkept
  · cases hs
    intro d hd
    cases List.mem_singleton.mp hd
    intro t ht
    cases ht

theorem withdrawn_address_recorded : ∃ (mac : Mac) (entries : List String),
    record (keeper.run keeperRun).site mac.text = some entries ∧ Machine.tenFive.text ∈ entries := by
  have hout : ∀ change, .outside change ∈ keeperRun → ∀ n : Machine MemoryHost MemoryLedger,
      record (change n) = record n ∧ listed (change n) = listed n := by
    intro change hchange n
    simp only [keeperRun, List.mem_cons, Happening.outside.injEq, reduceCtorEq, List.not_mem_nil,
      or_false, false_or] at hchange
    subst hchange
    exact ⟨rfl, rfl⟩
  have hwritten : (keeper.calls keeperRun).any Call.isRefused = false := by decide +kernel
  have hread : (keeper.passages keeperRun).any (fun p => p.calls.any Call.isRefused) = false := by
    decide +kernel
  have hcalls : (Turn.calls ⟨keeper, keeperRun.head (by simp [keeperRun])⟩).any
      (Call.binds 2 Machine.tenFive) = true := by decide +kernel
  have hbound : ∀ t ∈ keeper.turns keeperRun, .host Machine.tenFive ∈ bound t.finish.site 2 := by
    decide +kernel
  obtain ⟨c, hc, hbind⟩ := List.any_eq_true.mp hcalls
  cases c with
  | bind iface ip k answer =>
    cases answer with
    | error f => cases hbind
    | ok u =>
      obtain ⟨hindex, hip⟩ := Bool.and_eq_true_iff.mp hbind
      cases eq_of_beq hip
      obtain ⟨mac, entries, -, hrecord, hentry⟩ := bound_stays_recorded keeper keeperRun
        distinct_keeper hout printed_keeperRun
        (fun key ips f hcall => List.any_eq_false.mp hwritten _ hcall rfl)
        (fun p hp key text hcall =>
          absurd (List.any_eq_true.mpr ⟨_, hcall, rfl⟩) (List.any_eq_false.mp hread p hp))
        [] _ _ rfl hc (by rw [eq_of_beq hindex]; exact hbound)
      exact ⟨mac, entries, hrecord, hentry⟩
  | _ => cases hbind

end Managed
end ForwardedIp
