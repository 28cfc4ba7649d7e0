import ForwardedIp.Proofs.SeparatePassages
import ForwardedIp.Proofs.Truthfulness
import ForwardedIp.Reconciler.Report
/-!
# Visits in which nothing fails

A report counts no failure exactly if every visit of the pass was clean: there was nothing to do,
or everything that was tried succeeded. A clean pass settles its declaration: on every matched
interface what is wanted is bound, and nothing but what is wanted is recorded.
-/
namespace ForwardedIp

open RecordedSite MemorySite

/-- Everything that was tried on an interface succeeded. -/
structure Work.Clean (w : Work) : Prop where
  binds : ∀ a ∈ w.binds, a.failed = false
  unbinds : ∀ a ∈ w.unbinds, a.failed = false
  saved : w.saved = .ok ()

/-- Nothing failed in a visit. -/
def Visit.Clean : Visit → Prop
  | .unparseable _ | .unmatched _ _ => True
  | .unreadable _ _ _ | .unrecorded _ _ _ => False
  | .reconciled w => w.Clean

namespace Report
variable {r : Report} {v : Visit} {visits : List Visit}

theorem hasFailures_eq_false : r.hasFailures = false ↔ r.failed = 0 ∧ r.transient = 0 := by
  simp [hasFailures]

theorem addWork_failed_eq_zero {w : Work} :
    (r.addWork w).failed = 0 ↔ r.failed = 0 ∧ w.Clean := by
  have hsaved : (if w.saved.isOk = true then 0 else 1) = 0 ↔ w.saved = .ok () := by
    cases w.saved <;> simp [Except.isOk, Except.toBool]
  simp only [addWork, Nat.add_eq_zero_iff, List.countP_eq_zero, Bool.not_eq_true, hsaved]
  constructor
  · rintro ⟨⟨⟨hr, hbinds⟩, hunbinds⟩, hok⟩
    exact ⟨hr, hbinds, hunbinds, hok⟩
  · rintro ⟨hr, hbinds, hunbinds, hok⟩
    exact ⟨⟨⟨hr, hbinds⟩, hunbinds⟩, hok⟩

theorem hasFailures_add : (r.add v).hasFailures = false ↔ r.hasFailures = false ∧ v.Clean := by
  rw [hasFailures_eq_false, hasFailures_eq_false]
  cases v with
  | unparseable raw => simp [add, Visit.Clean]
  | unmatched raw mac => simp [add, Visit.Clean]
  | unreadable mac iface fault => simp [add, Visit.Clean]
  | unrecorded mac iface fault => simp [add, Visit.Clean]
  | reconciled w =>
    have hfailed : (r.add (.reconciled w)).failed = 0 ↔ r.failed = 0 ∧ w.Clean :=
      addWork_failed_eq_zero
    have htransient : (r.add (.reconciled w)).transient = r.transient := rfl
    rw [hfailed, htransient, Visit.Clean, and_right_comm]

theorem hasFailures_foldl_add : (visits.foldl add r).hasFailures = false ↔
    r.hasFailures = false ∧ ∀ v ∈ visits, v.Clean := by
  induction visits generalizing r with
  | nil => simp
  | cons v visits ih => rw [List.foldl_cons, ih, hasFailures_add, List.forall_mem_cons, and_assoc]

/-- A report counts no failure exactly if every visit was clean. -/
theorem hasFailures_ofVisits : (ofVisits visits).hasFailures = false ↔ ∀ v ∈ visits, v.Clean := by
  rw [ofVisits, hasFailures_foldl_add]
  exact and_iff_right rfl

end Report

namespace Visit
variable {wanted : List String} {binds unbinds : List Attempt}

theorem foldl_afterBind_of_clean (h : ∀ a ∈ binds, a.failed = false) :
    binds.foldl afterBind wanted = wanted := by
  rw [foldl_afterBind, List.filter_eq_self]
  intro t _
  rw [Bool.not_eq_true', ← Bool.not_eq_true, List.contains_iff_mem, Attempt.not_mem_refusals]
  exact fun a ha _ => h a ha

theorem foldl_afterUnbind_of_clean (h : ∀ a ∈ unbinds, a.failed = false) :
    unbinds.foldl afterUnbind wanted = wanted := by
  induction unbinds with
  | nil => rfl
  | cons a unbinds ih =>
    obtain ⟨ha, hunbinds⟩ := List.forall_mem_cons.mp h
    have hstep : afterUnbind wanted a = wanted := by simp [afterUnbind, ha]
    rw [List.foldl_cons, hstep, ih hunbinds]

variable {N : Type} [Site N] {live : List LiveInterface} {d : DeclaredInterface} {v : Visit}
  {w : Work} {n n' : N} {mac : Mac} {iface : LiveInterface}

theorem Reconciliation.next_eq_wanted (r : Reconciliation live d n w n') (hclean : w.Clean) :
    w.next = w.wanted := by
  rw [r.next_eq, nextRecord, foldl_afterBind_of_clean hclean.binds,
    foldl_afterUnbind_of_clean hclean.unbinds]

/-- A visit of a matched interface ends in one of three ways. -/
theorem Goes.of_matched (g : Goes live d n v n') (hmatch : d.MatchedBy live mac iface) :
    (∃ fault, v = .unreadable mac iface fault ∧
      (Site.addresses iface).run n = (.error fault, n')) ∨
    (∃ fault addresses n₁, v = .unrecorded mac iface fault ∧
      (Site.addresses iface).run n = (.ok addresses, n₁) ∧
      (Site.readRecord mac.text).run n₁ = (.error fault, n')) ∨
    ∃ w, ∃ _ : Reconciliation live d n w n', v = .reconciled w ∧ w.mac = mac ∧ w.iface = iface := by
  cases g with
  | unparseable hmac =>
    rw [hmatch.mac_eq] at hmac
    cases hmac
  | unmatched hmac hnone =>
    obtain rfl : _ = mac := Option.some.inj (hmac.symm.trans hmatch.mac_eq)
    rw [hmatch.iface_eq] at hnone
    cases hnone
  | unreadable hmac hiface haddresses =>
    obtain ⟨rfl, rfl⟩ := DeclaredInterface.MatchedBy.unique ⟨hmac, hiface⟩ hmatch
    exact .inl ⟨_, rfl, haddresses⟩
  | unrecorded hmac hiface haddresses hread hfault =>
    obtain ⟨rfl, rfl⟩ := DeclaredInterface.MatchedBy.unique ⟨hmac, hiface⟩ hmatch
    exact .inr (.inl ⟨_, _, _, rfl, haddresses, hread⟩)
  | @reconciled w _ r =>
    obtain ⟨hmac, hiface⟩ := DeclaredInterface.MatchedBy.unique ⟨r.mac_eq, r.iface_eq⟩ hmatch
    exact .inr (.inr ⟨w, r, rfl, hmac, hiface⟩)

theorem Goes.reconciled_of_clean (g : Goes live d n v n') (hclean : v.Clean)
    (hmatch : d.MatchedBy live mac iface) :
    ∃ w, ∃ _ : Reconciliation live d n w n', w.Clean ∧ w.mac = mac ∧ w.iface = iface := by
  rcases g.of_matched hmatch with ⟨fault, rfl, -⟩ | ⟨fault, _, _, rfl, -⟩ | ⟨w, r, rfl, hw⟩
  · exact hclean.elim
  · exact hclean.elim
  · exact ⟨w, r, hclean, hw⟩

end Visit

section Settling
variable {N : Type} [Site N] [MemorySite N] {live : List LiveInterface}
  {ds : List DeclaredInterface} {n : N}

/-- What is wanted on an interface is bound there, and is what its record says. -/
structure SettledAt (d : DeclaredInterface) (mac : Mac) (iface : LiveInterface) (n : N) : Prop where
  record_eq : record n mac.text = some (Visit.wantedOf d.forwardedIps)
  bound_of_wanted : ∀ t ∈ Visit.wantedOf d.forwardedIps,
    ∃ ip, IpAddr.parse? t = some ip ∧ .host ip ∈ bound n iface.index

/-- Every matched interface of a declaration is settled. -/
def Settled (live : List LiveInterface) (ds : List DeclaredInterface) (n : N) : Prop :=
  ∀ d ∈ ds, ∀ mac iface, d.MatchedBy live mac iface → SettledAt d mac iface n

theorem Visit.Reconciliation.settledAt {d : DeclaredInterface} {w : Work} {n' : N}
    (r : Reconciliation live d n w n') (hclean : w.Clean) (hprinted : Printed d.forwardedIps) :
    SettledAt d w.mac w.iface n' where
  record_eq := by rw [r.record_of_saved hclean.saved, r.next_eq_wanted hclean, r.wanted_eq]
  bound_of_wanted t ht := by
    rw [← r.wanted_eq, ← r.next_eq_wanted hclean] at ht
    exact r.entry_bound_of_printed hprinted ht

theorem SettledAt.of_alone {d : DeclaredInterface} {mac : Mac} {iface : LiveInterface}
    {p : Passage N} {n' : N} (h : SettledAt d mac iface p.after) (halone : p.Alone mac iface n n') :
    SettledAt d mac iface n' where
  record_eq := halone.record_after.trans h.record_eq
  bound_of_wanted := by
    rw [halone.bound_after]
    exact h.bound_of_wanted

/-- A clean pass settles what it declares. -/
theorem settled_of_clean (hseparate : Separate live ds)
    (hprinted : ∀ d ∈ ds, Printed d.forwardedIps)
    (hclean : ∀ v ∈ ((ds.mapM (Visit.run live)).run n).1, v.Clean) :
    Settled live ds ((ds.mapM (Visit.run live)).run n).2 := by
  intro d hd mac iface hmatch
  have hmem : d ∈ (Passage.ofVisits live ds n).map (·.declared) := by
    rw [Passage.map_declared_ofVisits]
    exact hd
  obtain ⟨p, hp, rfl⟩ := List.mem_map.mp hmem
  have halone := Passage.alone_of_mem_ofVisits hseparate hp hmatch
  have hvisit : p.visit.Clean := by
    apply hclean
    rw [← Passage.map_visit_ofVisits]
    exact List.mem_map_of_mem hp
  rw [← (Passage.mem_ofVisits hp).1] at hmatch
  obtain ⟨w, r, hwork, rfl, rfl⟩ := Visit.Goes.reconciled_of_clean halone.goes hvisit hmatch
  exact (r.settledAt hwork (hprinted p.declared hd)).of_alone halone

end Settling

/-- Whether the answer to a request was an error. -/
def Call.failed : Call → Bool
  | .interfaces (.error _) | .addresses _ (.error _) | .bind _ _ _ (.error _)
  | .unbind _ _ (.error _) | .readRecord _ (.error _) | .writeRecord _ _ (.error _)
  | .flush (.error _) => true
  | _ => false

theorem Call.bind_failed (iface : LiveInterface) (ip : IpAddr) (a : Attempt) :
    (Call.bind iface ip ip.hostPrefix a.answer).failed = a.failed := by
  obtain ⟨text, answer⟩ := a
  cases answer <;> rfl

theorem Call.unbind_failed (iface : LiveInterface) (ip : IpAddr) (a : Attempt) :
    (Call.unbind iface ip a.answer).failed = a.failed := by
  obtain ⟨text, answer⟩ := a
  cases answer <;> rfl

/-- Whether a request is to bind or to unbind an address. -/
def Call.isAttempt : Call → Bool
  | .bind _ _ _ _ | .unbind _ _ _ => true
  | _ => false

theorem Observed.unlisted_mem_calls {N : Type} [Site N] {o o' : Observed N} {fault : Fault}
    (h : Site.interfaces.run o = (.error fault, o')) :
    .interfaces (.error fault) ∈ o'.calls.drop o.calls.length := by
  rw [(Observed.noting_run h).2, List.drop_left]
  exact List.mem_cons_self

namespace Passage
variable {N : Type} [Site N] {p : Passage (Observed N)} {mac : Mac} {iface : LiveInterface}

theorem Chain.mem_calls {o o' : Observed N} {ps : List (Passage (Observed N))} {c : Call}
    (h : Chain Quiet o ps o') (hp : p ∈ ps) (hc : c ∈ p.calls) :
    c ∈ o'.calls.drop o.calls.length := by
  obtain ⟨earlier, later, rfl⟩ := List.append_of_mem hp
  obtain ⟨hearlier, hgoes, hlater⟩ := h.split
  obtain ⟨before, hbefore, -⟩ := hearlier.calls_eq
  obtain ⟨since, hsince, -⟩ := hlater.calls_eq
  rw [hsince, hgoes.calls_eq, hbefore, List.append_assoc, List.append_assoc, List.drop_left]
  exact List.mem_append_right _ (List.mem_append_left _ hc)

/-- A passage of a matched interface in which nothing fails but attempts is a reconciliation whose
reads and whose write succeed. -/
theorem Goes.reconciled_of_calls (g : p.Goes) (hmatch : p.declared.MatchedBy p.live mac iface)
    (hcalls : ∀ c ∈ p.calls, c.failed = true → c.isAttempt = true) :
    ∃ w, ∃ r : Visit.Reconciliation p.live p.declared p.before w p.after,
      p.visit = .reconciled w ∧ w.mac = mac ∧ w.iface = iface ∧
        (∃ entries, r.answer = .ok entries) ∧ w.saved = .ok () := by
  have hnever : ∀ calls c, p.after.calls = p.before.calls ++ calls → c ∈ calls →
      c.failed = true → c.isAttempt = true := by
    intro calls c heq hc
    refine hcalls c ?_
    rw [Passage.calls, heq, List.drop_left]
    exact hc
  rcases Visit.Goes.of_matched g hmatch with
    ⟨fault, -, haddresses⟩ | ⟨fault, addresses, o, -, haddresses, hread⟩ | ⟨w, r, hvisit, hw⟩
  · have hcall := hnever _ _ (Observed.noting_run haddresses).2 List.mem_cons_self rfl
    cases hcall
  · have heq := (Observed.noting_run hread).2
    rw [(Observed.noting_run haddresses).2, List.append_assoc] at heq
    have hcall := hnever _ _ heq (List.mem_append_right _ List.mem_cons_self) rfl
    cases hcall
  · refine ⟨w, r, hvisit, hw.1, hw.2, ?_, ?_⟩
    · cases hanswer : r.answer with
      | ok entries => exact ⟨entries, rfl⟩
      | error fault =>
        have hmem := r.read_mem_calls
        rw [hanswer] at hmem
        have hcall := hnever _ _ r.calls_eq hmem rfl
        cases hcall
    · cases hsaved : w.saved with
      | ok u => rfl
      | error fault =>
        have hmem := r.write_mem_calls
        rw [hsaved] at hmem
        have hcall := hnever _ _ r.calls_eq hmem rfl
        cases hcall

theorem Goes.clean_of_calls (g : p.Goes) (hmatch : p.declared.MatchedBy p.live mac iface)
    (hcalls : ∀ c ∈ p.calls, c.failed = false) :
    ∃ w, ∃ r : Visit.Reconciliation p.live p.declared p.before w p.after,
      p.visit = .reconciled w ∧ w.mac = mac ∧ w.iface = iface ∧
        (∃ entries, r.answer = .ok entries) ∧ w.Clean := by
  have hattempts : ∀ c ∈ p.calls, c.failed = true → c.isAttempt = true := by
    intro c hc hfailed
    rw [hcalls c hc] at hfailed
    cases hfailed
  obtain ⟨w, r, hvisit, hmac, hiface, hread, hsaved⟩ := g.reconciled_of_calls hmatch hattempts
  rw [calls_of_reconciliation r] at hcalls
  refine ⟨w, r, hvisit, hmac, hiface, hread, ?_, ?_, hsaved⟩
  · intro a ha
    obtain ⟨ip, hip⟩ := r.wanted_ip (r.bind_mem ha).1
    rw [← Call.bind_failed w.iface ip]
    exact hcalls _ (r.bind_mem_calls ha hip)
  · intro a ha
    obtain ⟨ip, hip⟩ := r.recorded_ip (r.unbind_mem ha).2.1
    rw [← Call.unbind_failed w.iface ip]
    exact hcalls _ (r.unbind_mem_calls ha hip)

theorem Goes.visit_clean (g : p.Goes) (hcalls : ∀ c ∈ p.calls, c.failed = false) :
    p.visit.Clean := by
  by_cases hmatched : ∃ mac iface, p.declared.MatchedBy p.live mac iface
  · obtain ⟨mac, iface, hmatch⟩ := hmatched
    obtain ⟨w, r, hvisit, -, -, -, hclean⟩ := g.clean_of_calls hmatch hcalls
    rw [hvisit]
    exact hclean
  · obtain ⟨live, d, before, visit, after⟩ := p
    change Visit.Goes live d before visit after at g
    cases g with
    | unparseable hmac => trivial
    | unmatched hmac hnone => trivial
    | unreadable hmac hiface haddresses => exact absurd ⟨_, _, hmac, hiface⟩ hmatched
    | unrecorded hmac hiface haddresses hread hfault =>
      exact absurd ⟨_, _, hmac, hiface⟩ hmatched
    | reconciled r => exact absurd ⟨_, _, r.mac_eq, r.iface_eq⟩ hmatched

end Passage

end ForwardedIp
