import ForwardedIp.Proofs.CommandPasses
import ForwardedIp.Proofs.PendingRetries
/-!
# Reports account for every request

A report counts what came of the interfaces of a pass. Each of its numbers is also a number of
requests that the pass made, told apart by what they were for and how they were answered; so what
the report calls a failure is a request that failed, and a pass is tried again exactly if there was
one. A text that is no address is asked for nowhere and counts nowhere.
-/
namespace ForwardedIp

namespace Call

/-- Whether a request is to write a record. -/
def isWrite : Call → Bool
  | .writeRecord _ _ _ => true
  | _ => false

/-- Whether a change was asked for and refused. -/
def isLoss (c : Call) : Bool := c.changes && c.failed

/-- Whether something could not be read that is needed. A record may be missing. -/
def isOutage : Call → Bool
  | .addresses _ (.error _) => true
  | .readRecord _ (.error fault) => !fault.isNotFound
  | _ => false

end Call

namespace Report

/-- A report counts some interfaces, and the requests that were made for them. -/
structure Accounts (r : Report) (interfaces : Nat) (calls : List Call) : Prop where
  visited : r.reconciled + r.skipped = interfaces
  written : calls.countP Call.isWrite = r.reconciled
  added : (calls.countP fun c => c.isBind && !c.failed) = r.added
  removed : (calls.countP fun c => c.isUnbind && !c.failed) = r.removed
  failed : calls.countP Call.isLoss = r.failed
  transient : calls.countP Call.isOutage = r.transient
  transient_le : r.transient ≤ r.skipped

variable {r r' : Report} {k k' : Nat} {calls calls' : List Call} {v : Visit} {visits : List Visit}

theorem Accounts.plus (h : r.Accounts k calls) (h' : r'.Accounts k' calls') :
    (r.plus r').Accounts (k + k') (calls ++ calls') where
  visited := by
    have hvisited := h.visited
    have hvisited' := h'.visited
    simp only [Report.plus]
    omega
  written := by rw [List.countP_append, h.written, h'.written]; rfl
  added := by rw [List.countP_append, h.added, h'.added]; rfl
  removed := by rw [List.countP_append, h.removed, h'.removed]; rfl
  failed := by rw [List.countP_append, h.failed, h'.failed]; rfl
  transient := by rw [List.countP_append, h.transient, h'.transient]; rfl
  transient_le := Nat.add_le_add h.transient_le h'.transient_le

/-- What has to be tried again is what failed. -/
theorem Accounts.hasFailures (h : r.Accounts k calls) :
    r.hasFailures = true ↔ ∃ c ∈ calls, c.isLoss = true ∨ c.isOutage = true := by
  rw [Report.hasFailures, Bool.or_eq_true, decide_eq_true_eq, decide_eq_true_eq, ← h.failed,
    ← h.transient, List.countP_pos_iff, List.countP_pos_iff]
  simp only [and_or_left, exists_or]

theorem plus_assoc (r r' r'' : Report) : (r.plus r').plus r'' = r.plus (r'.plus r'') := by
  simp only [plus, Nat.add_assoc]

theorem empty_plus (r : Report) : ({} : Report).plus r = r := by simp [plus]

theorem foldl_add (r : Report) (visits : List Visit) :
    visits.foldl add r = r.plus (ofVisits visits) := by
  induction visits generalizing r with
  | nil => rfl
  | cons v visits ih =>
    rw [ofVisits, List.foldl_cons, List.foldl_cons, ih, ih (add {} v), add_eq_plus r v, plus_assoc]

theorem ofVisits_cons (v : Visit) (visits : List Visit) :
    ofVisits (v :: visits) = (add {} v).plus (ofVisits visits) := foldl_add (add {} v) visits

end Report

namespace Visit
variable {N : Type} {live : List LiveInterface} {d : DeclaredInterface}
  {ds : List DeclaredInterface} {o o' : Observed N} {v : Visit} {visits : List Visit} {w : Work}

/-- Attempts on addresses are told apart as the calls that they make. -/
theorem Tries.countP_calls {n n' : N} {act : IpAddr → StateM N (Except Fault Unit)}
    {texts : List String} {attempts : List Attempt} {ofCall : Call → Bool}
    {ofAttempt : Attempt → Bool} (h : Tries act texts n attempts n')
    (call : IpAddr → Except Fault Unit → Call)
    (hcall : ∀ ip a, ofCall (call ip a.answer) = ofAttempt a) :
    (attempts.filterMap (Attempt.call? call)).countP ofCall = attempts.countP ofAttempt := by
  induction h with
  | nil n => rfl
  | @cons text ip texts n n₁ n' answer attempts hip hact rest ih =>
    rw [List.filterMap_cons_some (Attempt.call?_of_parse? hip), List.countP_cons, List.countP_cons,
      ih, ← hcall ip ⟨text, answer⟩]

variable [Site N]

namespace Reconciliation

theorem countP_calls {n n' : N} (r : Reconciliation live d n w n') {ofCall : Call → Bool}
    (ofBind ofUnbind : Attempt → Bool)
    (hbind : ∀ ip a, ofCall (.bind w.iface ip ip.hostPrefix a.answer) = ofBind a)
    (hunbind : ∀ ip a, ofCall (.unbind w.iface ip a.answer) = ofUnbind a) :
    r.calls.countP ofCall =
      [Call.addresses w.iface (.ok r.addresses), .readRecord w.mac.text r.answer].countP ofCall +
        w.binds.countP ofBind + w.unbinds.countP ofUnbind +
        [Call.writeRecord w.mac.text w.next w.saved].countP ofCall := by
  rw [calls, List.countP_append, List.countP_append, List.countP_append,
    r.binds_run.countP_calls (fun ip => .bind w.iface ip ip.hostPrefix) hbind,
    r.unbinds_run.countP_calls (.unbind w.iface) hunbind]

theorem read_not_outage (r : Reconciliation live d o w o') :
    (Call.readRecord w.mac.text r.answer).isOutage = false := by
  have hsame : ∀ answer, (Call.readRecord w.mac.text answer).isOutage =
      (Call.readRecord w.mac.text answer).isMishap := by
    intro answer
    cases answer <;> rfl
  rw [hsame, r.read_no_mishap]

/-- Work on an interface is counted as the requests that it made. -/
theorem accounts (r : Reconciliation live d o w o') :
    (Report.addWork {} w).Accounts 1 r.calls where
  visited := rfl
  written := by
    rw [r.countP_calls (fun _ => false) (fun _ => false)
      (fun _ _ => rfl) fun _ _ => rfl]
    simp [Call.isWrite, Report.addWork]
  added := by
    rw [r.countP_calls (fun a => !a.failed) (fun _ => false) ?_
      fun _ _ => rfl]
    · simp [Call.isBind, Report.addWork]
    · intro ip a
      rw [Call.bind_failed]
      rfl
  removed := by
    rw [r.countP_calls (fun _ => false) (fun a => !a.failed)
      (fun _ _ => rfl) ?_]
    · simp [Call.isUnbind, Report.addWork]
    · intro ip a
      rw [Call.unbind_failed]
      rfl
  failed := by
    rw [r.countP_calls (·.failed) (·.failed) ?_ ?_]
    · cases hsaved : w.saved <;>
        simp [Call.isLoss, Call.changes, Call.failed, Report.addWork, hsaved, Except.isOk,
          Except.toBool]
    · intro ip a
      rw [Call.isLoss, Call.bind_failed]
      rfl
    · intro ip a
      rw [Call.isLoss, Call.unbind_failed]
      rfl
  transient := by
    rw [r.countP_calls (fun _ => false) (fun _ => false)
      (fun _ _ => rfl) fun _ _ => rfl]
    rw [List.countP_cons, List.countP_singleton, r.read_not_outage]
    simp [Call.isOutage, Report.addWork]
  transient_le := Nat.le_refl 0

end Reconciliation

/-- A visit is counted as one interface and the requests that it made. -/
theorem Goes.accounts (g : Goes live d o v o') :
    ∃ calls, o'.calls = o.calls ++ calls ∧ (Report.add {} v).Accounts 1 calls := by
  cases g with
  | unparseable hmac =>
    exact ⟨[], (List.append_nil _).symm, rfl, rfl, rfl, rfl, rfl, rfl, Nat.zero_le _⟩
  | unmatched hmac hnone =>
    exact ⟨[], (List.append_nil _).symm, rfl, rfl, rfl, rfl, rfl, rfl, Nat.zero_le _⟩
  | unreadable hmac hiface haddresses =>
    exact ⟨_, (Observed.noting_run haddresses).2, rfl, rfl, rfl, rfl, rfl, rfl, Nat.le_refl _⟩
  | unrecorded hmac hiface haddresses hread hfault =>
    have hcalls := (Observed.noting_run hread).2
    rw [(Observed.noting_run haddresses).2, List.append_assoc] at hcalls
    refine ⟨_, hcalls, rfl, rfl, rfl, rfl, rfl, ?_, Nat.le_refl _⟩
    simp [Call.isOutage, hfault, Report.add]
  | reconciled r => exact ⟨r.calls, r.calls_eq, r.accounts⟩

theorem accounts (h : (ds.mapM (Visit.run live)).run o = (visits, o')) :
    ∃ calls, o'.calls = o.calls ++ calls ∧
      (Report.ofVisits visits).Accounts ds.length calls := by
  induction ds generalizing o visits with
  | nil =>
    cases h
    exact ⟨[], (List.append_nil _).symm, rfl, rfl, rfl, rfl, rfl, rfl, Nat.le_refl _⟩
  | cons d ds ih =>
    rw [List.mapM_cons] at h
    cases hfirst : (Visit.run live d).run o with
    | mk v o₁ =>
    rw [run_bind hfirst] at h
    cases hrest : (ds.mapM (Visit.run live)).run o₁ with
    | mk rest o₂ =>
    rw [run_bind hrest] at h
    cases h
    obtain ⟨calls, hcalls, haccounts⟩ := (goes hfirst).accounts
    obtain ⟨calls', hcalls', haccounts'⟩ := ih hrest
    refine ⟨calls ++ calls', ?_, ?_⟩
    · rw [hcalls', hcalls, List.append_assoc]
    · rw [Report.ofVisits_cons, List.length_cons, Nat.add_comm]
      exact haccounts.plus haccounts'

end Visit

namespace Engine
variable {N : Type} [Site N] {e : Engine} {s : Snapshot} {o o' : Observed N}

theorem Applies.accounts {report : Report} {events : List Event} {engine : Engine}
    (h : Applies e s o ⟨.ok report, events, engine⟩ o') :
    report.Accounts s.interfaces.length (o'.calls.drop o.calls.length) ∧
      engine.retryPending = report.hasFailures := by
  cases h with
  | @visited live visits o₁ _ hlisted hvisits =>
    refine ⟨?_, rfl⟩
    obtain ⟨calls, hcalls, haccounts⟩ := Visit.accounts hvisits
    rw [hcalls, (Observed.noting_run hlisted).2, List.append_assoc, List.drop_left]
    -- Listing the interfaces counts nowhere.
    have hlisting : ({} : Report).Accounts 0 [.interfaces (.ok live)] :=
      ⟨rfl, rfl, rfl, rfl, rfl, rfl, Nat.le_refl _⟩
    have hpass := hlisting.plus haccounts
    rw [Report.empty_plus, Nat.zero_add, declaration, Exclusion.length_apply] at hpass
    exact hpass

end Engine

/-- The report of an answer, if it is of a pass that completed. -/
def Answer.report? : Answer → Option Report
  | .report (.ok r) | .outcome (.ok (.applied r)) => some r
  | _ => none

namespace Engine
variable {e : Engine} {c : Command} {r : Report}

theorem report?_wrapUp {pass : Step (Except Fault Report)}
    (h : (e.wrapUp pass c).answer.report? = some r) :
    pass.answer = .ok r ∧ (e.wrapUp pass c).engine.retryPending = pass.engine.retryPending := by
  obtain ⟨answer, events, engine⟩ := pass
  cases answer with
  | error fault => cases c <;> cases h
  | ok report =>
    cases c with
    | cycle s =>
      cases h
      exact ⟨rfl, Bool.or_false _⟩
    | _ =>
      cases h
      exact ⟨rfl, rfl⟩

theorem report?_idleStep (h : e.pass? c = none) : (e.idleStep c).answer.report? = none := by
  cases c with
  | cycle s =>
    simp only [idleStep]
    cases (e.checkDisabled s).answer <;> rfl
  | _ => rfl

end Engine

namespace Managed
variable {N : Type} [Site N]

/-- A report accounts for every outcome of its pass: each interface that is declared is reconciled
or skipped, and every number is that of some requests of the pass. What failed in it is tried again,
and nothing else makes another pass necessary. -/
theorem report_accounts (m : Managed N) (c : Command) {r : Report}
    (h : (m.perform c).1.report? = some r) :
    let calls := (m.perform c).2.site.calls.drop m.site.calls.length
    ∃ s, c.snapshot? = some s ∧ r.Accounts s.interfaces.length calls ∧
      ((m.perform c).2.engine.retryPending = true ↔
        ∃ call ∈ calls, call.isLoss = true ∨ call.isOutage = true) := by
  intro calls
  cases hpass : m.engine.pass? c with
  | none =>
    have hidle : (m.perform c).1 = (m.engine.idleStep c).answer := by
      unfold perform
      rw [Engine.perform_idle hpass]
    rw [hidle, Engine.report?_idleStep hpass] at h
    cases h
  | some pass =>
    obtain ⟨e, s⟩ := pass
    cases happly : (e.apply s).run m.site with
    | mk step o =>
    have hperform : m.perform c =
        ((m.engine.wrapUp step c).answer, ⟨(m.engine.wrapUp step c).engine, o⟩) := by
      unfold perform
      rw [Engine.perform_pass hpass, happly]
    rw [hperform] at h
    obtain ⟨hanswer, hretry⟩ := Engine.report?_wrapUp h
    obtain ⟨answer, events, engine⟩ := step
    obtain rfl : answer = .ok r := hanswer
    obtain ⟨haccounts, hpending⟩ := (Engine.applies happly).accounts
    have hcalls : calls = o.calls.drop m.site.calls.length := by
      show List.drop _ (m.perform c).2.site.calls = _
      rw [hperform]
    refine ⟨s, Engine.snapshot?_of_pass? hpass, hcalls ▸ haccounts, ?_⟩
    rw [hcalls, ← haccounts.hasFailures, ← hpending, ← hretry, hperform]

/-- Two interfaces, of which the second cannot be read. 10.0.0.5 cannot be bound to the first, and
10.0.0.6 is bound there and recorded. -/
def troubled : Managed (Machine MemoryHost MemoryLedger) where
  engine := .fresh {}
  site.site :=
    { host :=
        { interfaces :=
            [⟨"eth0", 2, Mac.parse? "02:00:00:00:00:0a"⟩,
              ⟨"eth1", 3, Mac.parse? "02:00:00:00:00:0b"⟩]
          bound := [(2, [.host Machine.tenSix])]
          faults := { unbindable := [Machine.tenFive], unreadable := [3] } }
      ledger := ⟨[("02:00:00:00:00:0a", ["10.0.0.6"])]⟩ }

/-- Addresses for both interfaces, and for one that there is not. -/
def demanding : Snapshot where
  interfaces := [⟨"02:00:00:00:00:0a", ["10.0.0.5", "::1"]⟩, ⟨"02:00:00:00:00:0b", ["10.0.0.7"]⟩,
    ⟨"eth2", ["10.0.0.8"]⟩]

theorem troubled_accounts : ∃ r, (troubled.perform (.cycle demanding)).1.report? = some r ∧
    r = ⟨1, 2, 1, 1, 1, 1⟩ ∧
    r.Accounts 3 (troubled.perform (.cycle demanding)).2.site.calls ∧
    (troubled.perform (.cycle demanding)).2.engine.retryPending = true := by
  have hreport : (troubled.perform (.cycle demanding)).1.report? = some ⟨1, 2, 1, 1, 1, 1⟩ := by
    decide +kernel
  obtain ⟨s, hs, haccounts, hretry⟩ := report_accounts troubled (.cycle demanding) hreport
  cases hs
  exact ⟨_, hreport, rfl, haccounts, hretry.mpr (haccounts.hasFailures.mp rfl)⟩

end Managed
end ForwardedIp
