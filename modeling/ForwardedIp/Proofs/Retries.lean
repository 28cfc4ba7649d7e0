import Mathlib.Data.List.Pairwise
import ForwardedIp.Proofs.RepeatedVisits
import ForwardedIp.Proofs.Skipping
/-!
# Retries

The same snapshot is applied again and again while operations of the host fail now and then. Each
pass asks the host for what it refused in the pass before, in the same order, and for nothing else;
so what was granted once is not asked for again.
-/
namespace ForwardedIp

open RecordedSite MemorySite

/-- A request to bind or to unbind an address, whatever the answer. -/
inductive HostRequest where
  | bind (iface : LiveInterface) (ip : IpAddr) (prefixLen : Nat)
  | unbind (iface : LiveInterface) (ip : IpAddr)
  deriving DecidableEq

namespace HostRequest

def iface : HostRequest → LiveInterface
  | .bind iface _ _ | .unbind iface _ => iface

/-- The request to bind an IP with the host prefix. -/
def bindHost (iface : LiveInterface) (ip : IpAddr) : HostRequest := .bind iface ip ip.hostPrefix

end HostRequest

namespace Call

/-- What a call asks the host to change. -/
def request? : Call → Option HostRequest
  | .bind iface ip prefixLen _ => some (.bind iface ip prefixLen)
  | .unbind iface ip _ => some (.unbind iface ip)
  | _ => none

/-- What a call asked the host to change, and the host did not. -/
def refused? (c : Call) : Option HostRequest := if c.failed then c.request? else none

/-- What a call asked the host to change, and the host did. -/
def granted? (c : Call) : Option HostRequest := if c.failed then none else c.request?

theorem changes_of_request? {c : Call} {q : HostRequest} (h : c.request? = some q) :
    c.changes = true := by
  cases c <;> first | rfl | cases h

theorem refused?_eq_some {c : Call} {q : HostRequest} :
    c.refused? = some q ↔ c.failed = true ∧ c.request? = some q := by
  cases hc : c.failed <;> simp [refused?, hc]

theorem granted?_eq_some {c : Call} {q : HostRequest} :
    c.granted? = some q ↔ c.failed = false ∧ c.request? = some q := by
  cases hc : c.failed <;> simp [granted?, hc]

end Call

namespace Attempt
variable {call : IpAddr → Except Fault Unit → Call} {request : IpAddr → HostRequest}

theorem filterMap_request? (hrequest : ∀ ip answer, (call ip answer).request? = some (request ip))
    (attempts : List Attempt) : (attempts.filterMap (call? call)).filterMap Call.request? =
      (IpAddr.ofTexts (attempts.map (·.ip))).map request := by
  rw [IpAddr.ofTexts, List.filterMap_filterMap, List.filterMap_map, List.map_filterMap]
  refine List.filterMap_congr fun a _ => ?_
  cases hip : IpAddr.parse? a.ip <;> simp [call?, hip, hrequest]

theorem filterMap_refused? (hrequest : ∀ ip answer, (call ip answer).request? = some (request ip))
    (hfailed : ∀ ip (a : Attempt), (call ip a.answer).failed = a.failed)
    (attempts : List Attempt) : (attempts.filterMap (call? call)).filterMap Call.refused? =
      (IpAddr.ofTexts (refusals attempts)).map request := by
  rw [IpAddr.ofTexts, refusals, List.filterMap_filterMap, List.filterMap_map, List.map_filterMap,
    List.filterMap_filter]
  refine List.filterMap_congr fun a _ => ?_
  cases hip : IpAddr.parse? a.ip <;> cases ha : a.failed <;>
    simp [call?, Call.refused?, hip, ha, hrequest, hfailed]

end Attempt

namespace Visit
variable {N : Type} [Site N] {live live' : List LiveInterface} {d d' : DeclaredInterface}
  {n n' n₁ n₁' : N} {w w' : Work} {t : String}

namespace Reconciliation

theorem filterMap_request? (r : Reconciliation live d n w n') : r.calls.filterMap Call.request? =
    (IpAddr.ofTexts (w.binds.map (·.ip))).map (.bindHost w.iface) ++
      (IpAddr.ofTexts (w.unbinds.map (·.ip))).map (.unbind w.iface) := by
  rw [calls, List.filterMap_append, List.filterMap_append, List.filterMap_append,
    Attempt.filterMap_request? (fun _ _ => rfl), Attempt.filterMap_request? (fun _ _ => rfl)]
  exact List.append_nil _

theorem filterMap_refused? (r : Reconciliation live d n w n') : r.calls.filterMap Call.refused? =
    (IpAddr.ofTexts (Attempt.refusals w.binds)).map (.bindHost w.iface) ++
      (IpAddr.ofTexts (Attempt.refusals w.unbinds)).map (.unbind w.iface) := by
  have hread : (Call.readRecord w.mac.text r.answer).refused? = none := by
    cases r.answer <;> rfl
  have hwrite : (Call.writeRecord w.mac.text w.next w.saved).refused? = none := by
    cases w.saved <;> rfl
  rw [calls, List.filterMap_append, List.filterMap_append, List.filterMap_append,
    Attempt.filterMap_refused? (fun _ _ => rfl) (Call.bind_failed w.iface),
    Attempt.filterMap_refused? (fun _ _ => rfl) (Call.unbind_failed w.iface),
    List.filterMap_cons_none rfl, List.filterMap_cons_none hread,
    List.filterMap_cons_none hwrite]
  exact List.append_nil _

variable [MemorySite N]

/-- The requests of a visit, in order: wanted IPs, then bound ones. -/
theorem requests_ordered (r : Reconciliation live d n w n') (hprinted : Printed d.forwardedIps) :
    ∃ binds unbinds : List IpAddr,
      r.calls.filterMap Call.request? =
        binds.map (.bindHost w.iface) ++ unbinds.map (.unbind w.iface) ∧
      (binds.map IpAddr.text).Sublist (wantedOf d.forwardedIps) ∧
      (unbinds.map IpAddr.text).Sublist
        ((bound n w.iface.index).map LiveAddress.text).eraseDups := by
  refine ⟨_, _, r.filterMap_request?, ?_, ?_⟩
  · rw [IpAddr.map_text_ofTexts, r.binds_run.map_ip, ← r.wanted_eq]
    · exact AddressDiff.toAdd_sublist.trans (eraseDups_sublist _)
    · intro t ht
      obtain ⟨a, ha, rfl⟩ := List.mem_map.mp ht
      obtain ⟨ip, hip⟩ := r.wanted_ip (r.bind_mem ha).1
      exact ⟨ip, r.bind_printed hprinted ha hip⟩
  · rw [IpAddr.map_text_ofTexts, r.unbinds_run.map_ip, ← r.bound_texts]
    · exact AddressDiff.toRemove_sublist
    · intro t ht
      rw [r.unbinds_run.map_ip] at ht
      obtain ⟨ip, hip⟩ := r.recorded_ip (AddressDiff.mem_toRemove.mp ht).2.1
      exact ⟨ip, r.printed_toRemove t ht ip hip⟩

theorem requests_nodup (r : Reconciliation live d n w n') (hprinted : Printed d.forwardedIps) :
    (r.calls.filterMap Call.request?).Nodup := by
  obtain ⟨binds, unbinds, heq, hbinds, hunbinds⟩ := r.requests_ordered hprinted
  have hwanted : (wantedOf d.forwardedIps).Nodup := (nodup_eraseDups _).filter _
  have hbindsNodup := (hbinds.nodup hwanted).of_map
  have hunbindsNodup := (hunbinds.nodup (nodup_eraseDups _)).of_map
  rw [heq, List.nodup_append]
  refine ⟨hbindsNodup.map fun _ _ h => ?_, hunbindsNodup.map fun _ _ h => ?_, ?_⟩
  · injection h
  · injection h
  · intro q hq q' hq' heq
    obtain ⟨ip, -, rfl⟩ := List.mem_map.mp hq
    obtain ⟨ip', -, rfl⟩ := List.mem_map.mp hq'
    cases heq

end Reconciliation
end Visit

namespace Passage

theorem forall₂_of_declared {N : Type} {R : Passage N → Passage N → Prop}
    {ps ps' : List (Passage N)} (hmap : ps'.map (·.declared) = ps.map (·.declared))
    (h : ∀ p ∈ ps, ∀ p' ∈ ps', p'.declared = p.declared → R p p') : List.Forall₂ R ps ps' := by
  induction ps generalizing ps' with
  | nil =>
    rw [List.map_nil, List.map_eq_nil_iff] at hmap
    subst hmap
    exact .nil
  | cons p ps ih =>
    cases ps' with
    | nil => cases hmap
    | cons p' ps' =>
      obtain ⟨hdeclared, hrest⟩ := List.cons.inj hmap
      refine .cons (h p List.mem_cons_self p' List.mem_cons_self hdeclared) (ih hrest ?_)
      exact fun q hq q' hq' => h q (List.mem_cons_of_mem p hq) q' (List.mem_cons_of_mem p' hq')

variable {N : Type} [Site N] {p p' : Passage (Observed N)} {n n' n₁ n₁' : Observed N} {mac : Mac}
  {iface : LiveInterface}

theorem Goes.matched_of_request (g : p.Goes) {q : HostRequest}
    (hq : q ∈ p.calls.filterMap Call.request?) :
    ∃ mac, p.declared.MatchedBy p.live mac q.iface := by
  obtain ⟨c, hc, hrequest⟩ := List.mem_filterMap.mp hq
  obtain ⟨w, ⟨r⟩⟩ := g.reconciliation hc (Call.changes_of_request? hrequest)
  refine ⟨w.mac, r.mac_eq, ?_⟩
  rw [calls_of_reconciliation r] at hq
  rw [r.filterMap_request?, List.mem_append, List.mem_map, List.mem_map] at hq
  rcases hq with ⟨ip, -, rfl⟩ | ⟨ip, -, rfl⟩ <;> exact r.iface_eq

theorem Goes.requests_of_unmatched (g : p.Goes)
    (hunmatched : ¬ ∃ mac iface, p.declared.MatchedBy p.live mac iface) :
    p.calls.filterMap Call.request? = [] ∧ p.calls.filterMap Call.refused? = [] := by
  have hnone : ∀ c ∈ p.calls, c.request? = none := by
    intro c hc
    cases hrequest : c.request? with
    | none => rfl
    | some q =>
      obtain ⟨mac, hmatch⟩ := g.matched_of_request (List.mem_filterMap.mpr ⟨c, hc, hrequest⟩)
      exact absurd ⟨mac, q.iface, hmatch⟩ hunmatched
  constructor
  · exact List.filterMap_eq_nil_iff.mpr hnone
  · refine List.filterMap_eq_nil_iff.mpr fun c hc => ?_
    rw [Call.refused?, hnone c hc, ite_self]

variable [MemorySite N]

/-- A passage asks for what was refused in an earlier one of the same declared interface: binds in
wanted order, then unbinds in the order in which the addresses are bound. -/
structure Retries (p p' : Passage (Observed N)) : Prop where
  declared_eq : p'.declared = p.declared
  requests_eq : p'.calls.filterMap Call.request? = p.calls.filterMap Call.refused?
  ordered : ∀ mac iface, p'.declared.MatchedBy p'.live mac iface → ∃ binds unbinds : List IpAddr,
    p'.calls.filterMap Call.request? =
      binds.map (.bindHost iface) ++ unbinds.map (.unbind iface) ∧
    (binds.map IpAddr.text).Sublist (Visit.wantedOf p'.declared.forwardedIps) ∧
    (unbinds.map IpAddr.text).Sublist
      ((bound p'.before iface.index).map LiveAddress.text).eraseDups

/-- A passage whose declaration is in printed form and in which nothing fails but attempts. -/
structure Attempting (p : Passage (Observed N)) : Prop where
  goes : p.Goes
  printed : Printed p.declared.forwardedIps
  attempts : ∀ c ∈ p.calls, c.failed = true → c.isAttempt = true

theorem Attempting.retries_of_matched (h : p.Attempting) (h' : p'.Attempting)
    (hdeclared : p'.declared = p.declared) (hmatch : p.declared.MatchedBy p.live mac iface)
    (hmatch' : p'.declared.MatchedBy p'.live mac iface) (halone : p.Alone mac iface n n')
    (halone' : p'.Alone mac iface n₁ n₁') (hsame : SameState n' n₁) : p.Retries p' := by
  obtain ⟨w, r, -, rfl, rfl, -, hsaved⟩ := h.goes.reconciled_of_calls hmatch h.attempts
  obtain ⟨w', r', -, hmac', hiface', ⟨entries, hanswer⟩, -⟩ :=
    h'.goes.reconciled_of_calls hmatch' h'.attempts
  have hrecord : record p'.before w.mac.text = some w.next := by
    rw [halone'.record_before, hsame.record_eq, halone.record_after, r.record_of_saved hsaved]
  have hbound : bound p'.before w.iface.index = bound p.after w.iface.index := by
    rw [halone'.bound_before, hsame.bound_eq, halone.bound_after]
  have hrecorded : ∀ t, t ∈ w'.recorded ↔ t ∈ w.next := by
    intro t
    rw [r'.recorded_of_ok hanswer, hmac', hrecord, Visit.mem_ownedOf]
    constructor
    · rintro ⟨⟨_, heq, ht⟩, -⟩
      cases heq
      exact ht
    · exact fun ht => ⟨⟨_, rfl, ht⟩, r.isIp_of_mem_next ht⟩
  -- Nobody else wrote the record or bound anything on the interface in between.
  have hfollows : r'.Follows r := ⟨hdeclared, hiface', hbound, hrecorded⟩
  refine ⟨hdeclared, ?_, ?_⟩
  · rw [calls_of_reconciliation r, calls_of_reconciliation r', r'.filterMap_request?,
      r.filterMap_refused?, hfollows.map_ip_binds h.printed, hfollows.map_ip_unbinds h.printed,
      hiface']
  · intro mac iface hmatch
    obtain ⟨-, rfl⟩ := hmatch'.unique hmatch
    rw [calls_of_reconciliation r', ← hiface']
    exact r'.requests_ordered h'.printed

theorem Attempting.requests_nodup (h : p.Attempting) : (p.calls.filterMap Call.request?).Nodup := by
  by_cases hmatched : ∃ mac iface, p.declared.MatchedBy p.live mac iface
  · obtain ⟨mac, iface, hmatch⟩ := hmatched
    obtain ⟨w, r, -⟩ := h.goes.reconciled_of_calls hmatch h.attempts
    rw [calls_of_reconciliation r]
    exact r.requests_nodup h.printed
  · rw [(h.goes.requests_of_unmatched hmatched).1]
    exact List.nodup_nil

theorem Attempting.retries (h : p.Attempting) (h' : p'.Attempting) (hlive : p'.live = p.live)
    (hdeclared : p'.declared = p.declared) (hsame : SameState n' n₁)
    (halone : ∀ mac iface, p.declared.MatchedBy p.live mac iface → p.Alone mac iface n n')
    (halone' : ∀ mac iface, p'.declared.MatchedBy p'.live mac iface → p'.Alone mac iface n₁ n₁') :
    p.Retries p' := by
  by_cases hmatched : ∃ mac iface, p.declared.MatchedBy p.live mac iface
  · obtain ⟨mac, iface, hmatch⟩ := hmatched
    have hmatch' : p'.declared.MatchedBy p'.live mac iface := by
      rw [hdeclared, hlive]
      exact hmatch
    exact h.retries_of_matched h' hdeclared hmatch hmatch' (halone mac iface hmatch)
      (halone' mac iface hmatch') hsame
  · have hmatched' : ¬ ∃ mac iface, p'.declared.MatchedBy p'.live mac iface := by
      rw [hdeclared, hlive]
      exact hmatched
    refine ⟨hdeclared, ?_, fun mac iface hmatch => absurd ⟨mac, iface, hmatch⟩ hmatched'⟩
    rw [(h.goes.requests_of_unmatched hmatched).2, (h'.goes.requests_of_unmatched hmatched').1]

theorem flatMap_requests {ps ps' : List (Passage (Observed N))} (h : List.Forall₂ Retries ps ps') :
    (ps'.flatMap fun p => p.calls.filterMap Call.request?) =
      ps.flatMap fun p => p.calls.filterMap Call.refused? := by
  induction h with
  | nil => rfl
  | cons hp hps ih => rw [List.flatMap_cons, List.flatMap_cons, hp.requests_eq, ih]

end Passage

namespace Turn
variable {N : Type} [Site N] {t t' : Turn N}

theorem filterMap_calls {f : Call → Option HostRequest}
    (hf : ∀ c q, f c = some q → c.request? = some q) (t : Turn N) :
    t.calls.filterMap f = t.passages.flatMap fun p => p.calls.filterMap f := by
  have hchanges : ∀ calls : List Call,
      (calls.filter Call.changes).filterMap f = calls.filterMap f := by
    intro calls
    rw [List.filterMap_filter]
    refine List.filterMap_congr fun c _ => ?_
    cases hc : f c with
    | none => exact ite_self none
    | some q => exact if_pos (Call.changes_of_request? (hf c q hc))
  obtain ⟨calls, heq, hfilter⟩ := t.chain_quiet.calls_eq
  rw [Turn.calls, heq, List.drop_left, ← hchanges, hfilter, List.filterMap_flatMap]
  simp only [hchanges]

theorem filterMap_request? (t : Turn N) : t.calls.filterMap Call.request? =
    t.passages.flatMap fun p => p.calls.filterMap Call.request? :=
  t.filterMap_calls fun _ _ h => h

theorem filterMap_refused? (t : Turn N) : t.calls.filterMap Call.refused? =
    t.passages.flatMap fun p => p.calls.filterMap Call.refused? :=
  t.filterMap_calls fun _ _ h => (Call.refused?_eq_some.mp h).2

theorem refused_subset (t : Turn N) :
    t.calls.filterMap Call.refused? ⊆ t.calls.filterMap Call.request? := by
  intro q hq
  obtain ⟨c, hc, hrefused⟩ := List.mem_filterMap.mp hq
  exact List.mem_filterMap.mpr ⟨c, hc, (Call.refused?_eq_some.mp hrefused).2⟩

/-- A turn asks for nothing but what was refused in an earlier one. -/
def AsksRefused (t t' : Turn N) : Prop :=
  t'.calls.filterMap Call.request? ⊆ t.calls.filterMap Call.refused?

instance : Trans (@AsksRefused N _) (@AsksRefused N _) (@AsksRefused N _) where
  trans hab hbc _ hq := hab (refused_subset _ (hbc hq))

theorem refused_not_granted (hnodup : (t.calls.filterMap Call.request?).Nodup) {q : HostRequest}
    (hgranted : q ∈ t.calls.filterMap Call.granted?) : q ∉ t.calls.filterMap Call.refused? := by
  intro hrefused
  obtain ⟨c, hc, hcq⟩ := List.mem_filterMap.mp hgranted
  obtain ⟨c', hc', hcq'⟩ := List.mem_filterMap.mp hrefused
  obtain ⟨hok, hrequest⟩ := Call.granted?_eq_some.mp hcq
  obtain ⟨hfailed, hrequest'⟩ := Call.refused?_eq_some.mp hcq'
  have hne : c ≠ c' := by
    rintro rfl
    rw [hok] at hfailed
    cases hfailed
  have hsymm : Std.Symm fun c c' : Call => ∀ q, c.request? = some q → ∀ q', c'.request? = some q' →
      q ≠ q' := ⟨fun c c' h q' hq' q hq heq => h q hq q' hq' heq.symm⟩
  exact (List.pairwise_filterMap.mp hnodup).forall hc hc' hne q hrequest q hrequest' rfl

variable [MemorySite N]

/-- A turn asks for what was refused in an earlier one, passage by passage. -/
structure Retries (t t' : Turn N) : Prop where
  passages : List.Forall₂ Passage.Retries t.passages t'.passages
  requests_eq : t'.calls.filterMap Call.request? = t.calls.filterMap Call.refused?

theorem retries_of_passages (h : List.Forall₂ Passage.Retries t.passages t'.passages) :
    t.Retries t' := by
  refine ⟨h, ?_⟩
  rw [t'.filterMap_request?, t.filterMap_refused?]
  exact Passage.flatMap_requests h

end Turn

/-- Other operations than before fail on a host in memory. -/
def Machine.refusing {L : Type} (faults : HostFaults) (m : Machine MemoryHost L) :
    Machine MemoryHost L := { m with host.faults := faults }

theorem Passage.sameState_refusing {L : Type} [LedgerStore L] [RecordedLedger L]
    (faults : HostFaults) (m : Machine MemoryHost L) : SameState m (m.refusing faults) :=
  ⟨rfl, rfl, rfl⟩

namespace Managed
variable {N : Type} [Site N]

def pass (m : Managed N) (s : Snapshot) : Turn N := ⟨m, .command (.apply s)⟩

/-- A snapshot is applied again and again. Before each pass somebody else may change the site. -/
def sweeps (m : Managed N) (s : Snapshot) : List (N → N) → List (Turn N)
  | [] => []
  | change :: changes =>
      let t := (m.step (.outside change)).pass s
      t :: t.finish.sweeps s changes

theorem pass_applies (m : Managed N) (s : Snapshot) : ∃ step,
    Engine.Applies m.engine s m.site step (m.pass s).finish.site ∧
      step.engine = (m.pass s).finish.engine :=
  ⟨_, Engine.applies rfl, rfl⟩

theorem overrides_pass (m : Managed N) (s : Snapshot) :
    (m.pass s).finish.engine.overrides = m.engine.overrides := by
  obtain ⟨step, happlies, hengine⟩ := m.pass_applies s
  rw [← hengine, happlies.engine_eq.2]

variable [MemorySite N] {m m' : Managed N} {s : Snapshot} {changes : List (N → N)}

theorem listed_pass (m : Managed N) (s : Snapshot) :
    listed (m.pass s).finish.site = listed m.site :=
  m.listed_run [.command (.apply s)] (by simp)

/-- A pass over interfaces that it keeps apart, with a declaration in printed form, in which
nothing fails but attempts. -/
structure Attempting (m : Managed N) (s : Snapshot) : Prop where
  separate : Separate (listed m.site) s.interfaces
  printed : s.Printed
  attempts : ∀ c ∈ (m.pass s).calls, c.failed = true → c.isAttempt = true

namespace Attempting

theorem map_declared (h : m.Attempting s) :
    (m.pass s).passages.map (·.declared) = m.engine.declaration s := by
  obtain ⟨step, happlies, -⟩ := m.pass_applies s
  cases happlies with
  | unlisted hlisted =>
    have hcall := h.attempts _ (Observed.unlisted_mem_calls hlisted)
    cases hcall rfl
  | visited hlisted hvisits => exact Passage.map_declared_ofPass _ hlisted

theorem passage (h : m.Attempting s) {p : Passage (Observed N)} (hp : p ∈ (m.pass s).passages) :
    p.Attempting where
  goes := Turn.goes_of_mem hp
  printed := Engine.printed_declaration h.printed _ (Passage.mem_ofPass hp).1
  attempts c hc := h.attempts c ((m.pass s).chain_quiet.mem_calls hp hc)

theorem alone (h : m.Attempting s) {p : Passage (Observed N)} (hp : p ∈ (m.pass s).passages)
    {mac : Mac} {iface : LiveInterface} (hmatch : p.declared.MatchedBy p.live mac iface) :
    p.Alone mac iface m.site (m.pass s).finish.site := by
  obtain ⟨step, happlies, -⟩ := m.pass_applies s
  exact happlies.alone (Engine.separate_declaration h.separate) hp hmatch

theorem requests_nodup (h : m.Attempting s) :
    ((m.pass s).calls.filterMap Call.request?).Nodup := by
  rw [Turn.filterMap_request?, List.nodup_flatMap]
  refine ⟨fun p hp => (h.passage hp).requests_nodup, ?_⟩
  have hindexes := (Engine.separate_declaration (e := m.engine) h.separate).indexes
  rw [← h.map_declared, List.pairwise_map] at hindexes
  refine hindexes.imp_of_mem fun {p p'} hp hp' hne q hq hq' => ?_
  obtain ⟨mac, hmatch⟩ := (h.passage hp).goes.matched_of_request hq
  obtain ⟨mac', hmatch'⟩ := (h.passage hp').goes.matched_of_request hq'
  rw [Passage.live_of_mem_ofPass hp] at hmatch
  rw [Passage.live_of_mem_ofPass hp'] at hmatch'
  exact hne mac mac' q.iface q.iface hmatch hmatch' rfl

theorem retries (h : m.Attempting s) (h' : m'.Attempting s)
    (hsame : Passage.SameState (m.pass s).finish.site m'.site)
    (hoverrides : m'.engine.overrides = m.engine.overrides) :
    (m.pass s).Retries (m'.pass s) := by
  have hmap : (m'.pass s).passages.map (·.declared) = (m.pass s).passages.map (·.declared) := by
    rw [h'.map_declared, h.map_declared, Engine.declaration_congr hoverrides]
  refine Turn.retries_of_passages (Passage.forall₂_of_declared hmap fun p hp p' hp' heq => ?_)
  have hlive : p'.live = p.live := by
    rw [Passage.live_of_mem_ofPass hp', Passage.live_of_mem_ofPass hp]
    exact hsame.listed_eq.trans (m.listed_pass s)
  exact (h.passage hp).retries (h'.passage hp') hlive heq hsame (fun _ _ => h.alone hp)
    fun _ _ => h'.alone hp'

end Attempting

theorem attempting_of_mem (hsteady : ∀ change ∈ changes, ∀ n, Passage.SameState n (change n))
    (hseparate : Separate (listed m.site) s.interfaces) (hprinted : s.Printed)
    (hattempts : ∀ t ∈ m.sweeps s changes, ∀ c ∈ t.calls, c.failed = true → c.isAttempt = true)
    {t : Turn N} (ht : t ∈ m.sweeps s changes) : t = t.start.pass s ∧ t.start.Attempting s := by
  induction changes generalizing m with
  | nil => cases ht
  | cons change changes ih =>
    obtain ⟨hfirst, hrest⟩ := List.forall_mem_cons.mp hsteady
    obtain ⟨hpass, hpasses⟩ := List.forall_mem_cons.mp hattempts
    have hstart : Separate (listed (m.step (.outside change)).site) s.interfaces := by
      rw [show listed (m.step (.outside change)).site = _ from (hfirst m.site.site).listed_eq]
      exact hseparate
    rcases List.mem_cons.mp ht with rfl | ht
    · exact ⟨rfl, hstart, hprinted, hpass⟩
    · refine ih hrest ?_ hpasses ht
      rw [listed_pass]
      exact hstart

theorem isChain_sweeps (hsteady : ∀ change ∈ changes, ∀ n, Passage.SameState n (change n))
    (hattempting : ∀ t ∈ m.sweeps s changes, t.start.Attempting s) :
    (m.sweeps s changes).IsChain Turn.Retries := by
  induction changes generalizing m with
  | nil => exact .nil
  | cons change changes ih =>
    obtain ⟨-, hrest⟩ := List.forall_mem_cons.mp hsteady
    obtain ⟨hpass, hpasses⟩ := List.forall_mem_cons.mp hattempting
    cases changes with
    | nil => exact .singleton _
    | cons change' changes =>
      -- Between this pass and the next there is only the change before the next.
      refine List.isChain_cons_cons.mpr ⟨?_, ih hrest hpasses⟩
      have hnext := hpasses _ List.mem_cons_self
      have hsame := (List.forall_mem_cons.mp hrest).1
      exact Attempting.retries hpass hnext ⟨(hsame _).record_eq, (hsame _).listed_eq,
        (hsame _).bound_eq⟩ (overrides_pass _ s)

/-- Exactly the failed work is tried again: in passes of one snapshot between which nothing changes
but what the host refuses, each pass after the first asks for what was refused in the one before,
passage by passage and in order. What was granted is not asked for in any later pass. -/
theorem failures_retried (m : Managed N) (s : Snapshot) (changes : List (N → N))
    (hsteady : ∀ change ∈ changes, ∀ n, Passage.SameState n (change n))
    (hseparate : Separate (listed m.site) s.interfaces) (hprinted : s.Printed)
    (hattempts : ∀ t ∈ m.sweeps s changes, ∀ c ∈ t.calls, c.failed = true → c.isAttempt = true) :
    (m.sweeps s changes).IsChain Turn.Retries ∧
      (m.sweeps s changes).Pairwise fun t t' =>
        ∀ q ∈ t.calls.filterMap Call.granted?, q ∉ t'.calls.filterMap Call.request? := by
  have hattempting := fun t => attempting_of_mem (t := t) hsteady hseparate hprinted hattempts
  have hchain := isChain_sweeps hsteady fun t ht => (hattempting t ht).2
  refine ⟨hchain, ?_⟩
  -- What is asked for was refused in every earlier pass, not only in the one before.
  have hrefused : (m.sweeps s changes).Pairwise Turn.AsksRefused :=
    (hchain.imp fun t t' h q hq => h.requests_eq ▸ hq).pairwise
  refine hrefused.imp_of_mem fun {t t'} ht _ hsub q hgranted hq => ?_
  obtain ⟨heq, hstart⟩ := hattempting t ht
  have hnodup := hstart.requests_nodup
  rw [← heq] at hnodup
  exact Turn.refused_not_granted hnodup hgranted (hsub hq)

/-- Two interfaces of one index. 10.0.0.5 is recorded for the second. -/
def twins : Managed (Machine MemoryHost MemoryLedger) where
  engine := .fresh {}
  site :=
    { site :=
        { host :=
            { interfaces :=
                [⟨"eth0", 2, Mac.parse? "02:00:00:00:00:0a"⟩,
                  ⟨"eth1", 2, Mac.parse? "02:00:00:00:00:0b"⟩] }
          ledger := ⟨[("02:00:00:00:00:0b", ["10.0.0.5"])]⟩ } }

/-- 10.0.0.5 is declared for the first interface. -/
def handover : Snapshot where
  interfaces := [⟨"02:00:00:00:00:0a", ["10.0.0.5"]⟩, ⟨"02:00:00:00:00:0b", []⟩]

/-- The second interface gives up what was bound for the first, so it is asked for again. -/
theorem granted_asked_again : ¬ ∀ (m : Managed (Machine MemoryHost MemoryLedger)) (s : Snapshot)
    (changes : List (Machine MemoryHost MemoryLedger → Machine MemoryHost MemoryLedger)),
    (∀ change ∈ changes, ∀ n, Passage.SameState n (change n)) →
    DistinctMacs s.interfaces → s.Printed →
    (∀ t ∈ m.sweeps s changes, ∀ c ∈ t.calls, c.failed = true → c.isAttempt = true) →
    (m.sweeps s changes).IsChain Turn.Retries := by
  intro hall
  have hchain := hall twins handover [id, id] (by simp [Passage.between_sameState.refl])
    (by decide +kernel) (by decide +kernel) (by decide +kernel)
  have hrequests := (List.isChain_cons_cons.mp hchain).1.requests_eq
  revert hrequests
  decide +kernel

def outageSite : Managed (Machine MemoryHost MemoryLedger) where
  engine := .fresh {}
  site :=
    { site := .single "02:00:00:00:00:0a" [.host Machine.tenSix] ["10.0.0.6"] }

/-- First neither address can be moved, then 10.0.0.6 cannot be unbound, then nothing fails. -/
def outage : List HostFaults :=
  [{ unbindable := [Machine.tenFive], unremovable := [Machine.tenSix] },
    { unremovable := [Machine.tenSix] }, {}]

def replacement : Snapshot where
  interfaces := [⟨"02:00:00:00:00:0a", ["10.0.0.5"]⟩]

theorem outage_retried : (outageSite.sweeps replacement (outage.map Machine.refusing)).IsChain
      Turn.Retries ∧
    (outageSite.sweeps replacement (outage.map Machine.refusing)).map
        (fun t => t.calls.filterMap Call.request?) =
      let eth0 : LiveInterface := ⟨"eth0", 2, Mac.parse? "02:00:00:00:00:0a"⟩
      [[.bindHost eth0 Machine.tenFive, .unbind eth0 Machine.tenSix],
        [.bindHost eth0 Machine.tenFive, .unbind eth0 Machine.tenSix],
        [.unbind eth0 Machine.tenSix]] := by
  have hretried := failures_retried outageSite replacement (outage.map Machine.refusing)
    (List.forall_mem_map.mpr fun faults _ => Passage.sameState_refusing faults)
    (DistinctMacs.separate (by decide +kernel) (by decide)) (by decide +kernel)
    (by decide +kernel)
  exact ⟨hretried.1, by decide +kernel⟩

end Managed
end ForwardedIp
