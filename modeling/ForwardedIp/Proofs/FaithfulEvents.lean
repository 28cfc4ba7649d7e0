import ForwardedIp.Proofs.ToldEvents
import ForwardedIp.Reconciler.Manager
/-!
# Events account for calls

What is told of an interface follows from the calls that were made for it. The change that is told
names the addresses that the host was asked to bind and to unbind, in order, and before any call;
then each call that was refused is told. Of an interface that is skipped nothing is told but bad
input. A pass ends with its completion, unless the interfaces could not be listed.
-/
namespace ForwardedIp

namespace Call

/-- Why the host refused to bind or to unbind an address, if it did. -/
def refusal? : Call → Option Fault
  | .bind _ _ _ (.error fault) | .unbind _ _ (.error fault) => some fault
  | _ => none

/-- A call is to bind the address that a text denotes, as a single host. -/
def BindsText (iface : LiveInterface) (text : String) (c : Call) : Prop :=
  ∃ ip answer, IpAddr.parse? text = some ip ∧ c = .bind iface ip ip.hostPrefix answer

/-- A call is to unbind the address that a text denotes. -/
def UnbindsText (iface : LiveInterface) (text : String) (c : Call) : Prop :=
  ∃ ip answer, IpAddr.parse? text = some ip ∧ c = .unbind iface ip answer

theorem changes_of_isAttempt {c : Call} (h : c.isAttempt = true) : c.changes = true := by
  cases c <;> first | rfl | cases h

end Call

namespace Event

/-- Whether an event is about bad input. -/
def isComplaint : Event → Bool
  | .badInterface _ _ | .badForwardedIp _ _ => true
  | _ => false

/-- Whether an event tells that a pass completed. -/
def isCompletion : Event → Bool
  | .cycleCompleted _ _ => true
  | _ => false

theorem not_completion_of_isOfInterface {e : Event} (h : e.isOfInterface = true) :
    e.isCompletion = false := by
  cases e <;> first | rfl | cases h

/-- What is told of a change, before it is carried out. -/
def ofChange (mac : Mac) (added removed : List String) : List Event :=
  if added = [] ∧ removed = [] then [] else [.forwardedIpsChanged mac.text added removed]

/-- What is told of the calls made for some texts: those that were refused, in order. -/
def ofRefusals (event : String → String → Event) (texts : List String) (calls : List Call) :
    List Event :=
  (texts.zip calls).filterMap fun pair =>
    pair.2.refusal?.map fun fault => event pair.1 fault.message

theorem ofRefusals_cons (event : String → String → Event) (text : String) (texts : List String)
    (call : Call) (calls : List Call) : ofRefusals event (text :: texts) (call :: calls) =
      (call.refusal?.map fun fault => event text fault.message).toList ++
        ofRefusals event texts calls := by
  rw [ofRefusals, List.zip_cons_cons, List.filterMap_cons]
  cases call.refusal? <;> simp [ofRefusals]

end Event

/-- Events account for the calls of a passage. -/
inductive Passage.ToldBy {N : Type} (p : Passage (Observed N)) : List Event → Prop where
  | skipped {complaints : List Event} (hskipped : p.Skipped)
      (hcalls : p.calls.filter Call.isAttempt = [])
      (hcomplaints : ∀ e ∈ complaints, e.isComplaint = true) : p.ToldBy complaints
  | reconciled {mac : Mac} {iface : LiveInterface} {added removed : List String}
      {binds unbinds : List Call} {complaints : List Event} (hdone : ¬p.Skipped)
      (hmatch : p.declared.MatchedBy p.live mac iface)
      (hcalls : p.calls.filter Call.isAttempt = binds ++ unbinds)
      (hbinds : List.Forall₂ (Call.BindsText iface) added binds)
      (hunbinds : List.Forall₂ (Call.UnbindsText iface) removed unbinds)
      (hcomplaints : ∀ e ∈ complaints, e.isComplaint = true) :
      p.ToldBy (complaints ++ Event.ofChange mac added removed ++
        (Event.ofRefusals (.addressAddFailed mac.text) added binds ++
          Event.ofRefusals (.addressRemoveFailed mac.text) removed unbinds))

namespace Notices

theorem isComplaint_of_skipped (n : Notices) {v : Visit} (hskip : v.work? = none) :
    ∀ e ∈ (n.tell v).1, e.isComplaint = true := by
  cases v with
  | unparseable raw => exact n.forall_badMac (by rfl)
  | unmatched raw mac => exact n.forall_badMac (by rfl)
  | unreadable mac iface fault => exact fun e he => absurd he List.not_mem_nil
  | unrecorded mac iface fault => exact fun e he => absurd he List.not_mem_nil
  | reconciled w => cases hskip

theorem changeEvent_eq (w : Work) :
    changeEvent w = Event.ofChange w.mac (w.binds.map (·.ip)) (w.unbinds.map (·.ip)) := by
  simp only [changeEvent, Event.ofChange, List.isEmpty_iff, Bool.and_eq_true, List.map_eq_nil_iff]

end Notices

theorem Attempt.isAttempt_calls {call : IpAddr → Except Fault Unit → Call}
    (hcall : ∀ ip answer, (call ip answer).isAttempt = true) (attempts : List Attempt) :
    (attempts.filterMap (call? call)).filter Call.isAttempt = attempts.filterMap (call? call) := by
  refine List.filter_eq_self.mpr fun c hc => ?_
  obtain ⟨a, -, ip, -, rfl⟩ := Visit.mem_filterMap_call?.mp hc
  exact hcall ip a.answer

namespace Visit
variable {N : Type} {live : List LiveInterface} {d : DeclaredInterface} {n n' : N} {w : Work}

namespace Tries
variable {act : IpAddr → StateM N (Except Fault Unit)} {texts : List String}
  {attempts : List Attempt}

/-- Attempts on addresses make a call for each text, in order. -/
theorem forall₂_calls (h : Tries act texts n attempts n')
    (call : IpAddr → Except Fault Unit → Call) :
    List.Forall₂ (fun text c => ∃ ip answer, IpAddr.parse? text = some ip ∧ c = call ip answer)
      texts (attempts.filterMap (Attempt.call? call)) := by
  induction h with
  | nil n => exact .nil
  | cons hip hact rest ih =>
    rw [List.filterMap_cons_some (Attempt.call?_of_parse? hip)]
    exact .cons ⟨_, _, hip, rfl⟩ ih

theorem ofRefusals_calls (h : Tries act texts n attempts n')
    (call : IpAddr → Except Fault Unit → Call)
    (hcall : ∀ ip a, (call ip a.answer).refusal? = Attempt.fault? a)
    (event : String → String → Event) :
    Event.ofRefusals event texts (attempts.filterMap (Attempt.call? call)) =
      attempts.filterMap fun a => a.fault?.map fun fault => event a.ip fault.message := by
  induction h with
  | nil n => rfl
  | @cons text ip texts n n₁ n' answer attempts hip hact rest ih =>
    have hrefusal : (call ip answer).refusal? = Attempt.fault? ⟨text, answer⟩ :=
      hcall ip ⟨text, answer⟩
    rw [List.filterMap_cons_some (Attempt.call?_of_parse? hip), Event.ofRefusals_cons, ih, hrefusal,
      List.filterMap_cons]
    cases Attempt.fault? ⟨text, answer⟩ <;> rfl

end Tries

namespace Reconciliation
variable [Site N]

theorem attempts_eq (r : Reconciliation live d n w n') : r.calls.filter Call.isAttempt =
    w.binds.filterMap (Attempt.call? fun ip => .bind w.iface ip ip.hostPrefix) ++
      w.unbinds.filterMap (Attempt.call? (.unbind w.iface)) := by
  rw [calls, List.filter_append, List.filter_append, List.filter_append,
    Attempt.isAttempt_calls fun _ _ => rfl, Attempt.isAttempt_calls fun _ _ => rfl]
  exact List.append_nil _

theorem failureEvents_eq (r : Reconciliation live d n w n') : Notices.failureEvents w =
    Event.ofRefusals (.addressAddFailed w.mac.text) (w.binds.map (·.ip))
        (w.binds.filterMap (Attempt.call? fun ip => .bind w.iface ip ip.hostPrefix)) ++
      Event.ofRefusals (.addressRemoveFailed w.mac.text) (w.unbinds.map (·.ip))
        (w.unbinds.filterMap (Attempt.call? (.unbind w.iface))) := by
  rw [r.binds_run.map_ip, r.unbinds_run.map_ip, r.binds_run.ofRefusals_calls,
    r.unbinds_run.ofRefusals_calls]
  · rfl
  · rintro ip ⟨text, answer⟩
    cases answer <;> rfl
  · rintro ip ⟨text, answer⟩
    cases answer <;> rfl

end Reconciliation
end Visit

/-- Whatever was told before, what is told of a passage accounts for its calls. -/
theorem Passage.Goes.toldBy {N : Type} [Site N] {p : Passage (Observed N)} (g : p.Goes)
    (n : Notices) : p.ToldBy (n.tell p.visit).1 := by
  cases hwork : p.visit.work? with
  | none =>
    refine .skipped (g.skipped_iff.mpr hwork) ?_ (n.isComplaint_of_skipped hwork)
    refine List.filter_eq_nil_iff.mpr fun c hc hattempt => ?_
    have hchanges : c.changes = false := Visit.Goes.quiet_of_skipped g hwork c hc
    rw [Call.changes_of_isAttempt hattempt] at hchanges
    cases hchanges
  | some w =>
    obtain ⟨live, d, o, v, o'⟩ := p
    change Visit.Goes live d o v o' at g
    cases g with
    | @reconciled w _ r =>
      have hcalls := Passage.calls_of_reconciliation (p := ⟨live, d, o, .reconciled w, o'⟩) r
      have htold : (n.tell (.reconciled w)).1 =
          (Notices.tellAll (fun n => n.badIp w.mac) n w.rejected).1 ++
            Notices.changeEvent w ++ Notices.failureEvents w := rfl
      rw [htold, Notices.changeEvent_eq, r.failureEvents_eq]
      refine .reconciled r.not_skipped r.matchedBy (hcalls ▸ r.attempts_eq) ?_ ?_ ?_
      · rw [r.binds_run.map_ip]
        exact r.binds_run.forall₂_calls _
      · rw [r.unbinds_run.map_ip]
        exact r.unbinds_run.forall₂_calls _
      · exact Notices.forall_tellAll (fun n ip => n.forall_badIp (by rfl)) n w.rejected
    | unparseable hmac => cases hwork
    | unmatched hmac hmatch => cases hwork
    | unreadable hmac hmatch haddresses => cases hwork
    | unrecorded hmac hmatch haddresses hread hfault => cases hwork

namespace Engine
variable {N : Type} [Site N] {e e' : Engine} {c : Command} {s : Snapshot} {o : Observed N}

theorem map_passage_accounts (e : Engine) (c : Command) (n : N) :
    (e.accounts c n).map (·.passage) = e.passages c n :=
  e.notices.map_passage_accounts (e.passages c n)

/-- Each account of a command tells faithfully of its passage. -/
theorem toldBy_of_mem {a : Account (Observed N)} (ha : a ∈ e.accounts c o) :
    a.passage.ToldBy a.events := by
  obtain ⟨hp, earlier, hevents⟩ := Notices.mem_accounts ha
  have hgoes := (chain_perform Passage.between_quiet e c o).goes_of_mem hp
  rw [hevents]
  exact hgoes.toldBy earlier

theorem passages_of_pass? (hpass : e.pass? c = some (e', s)) (n : N) :
    e.passages c n = e'.passages (.apply s) n := by
  rw [passages, hpass]
  rfl

theorem statusEvents_not_completion : ∀ ev ∈ e.statusEvents c, ev.isCompletion = false := by
  intro ev hev
  obtain ⟨disabled, rfl⟩ := status_of_mem hev
  rfl

/-- A pass over interfaces that could be listed tells of each declared one, and that it
completed. -/
theorem told_of_listed {live : List LiveInterface} {o' : Observed N}
    (hpass : e.pass? c = some (e', s)) (hlisted : Site.interfaces.run o = (.ok live, o')) :
    ((e.perform c).run o).2.calls =
        o.calls ++ .interfaces (.ok live) :: (e.accounts c o).flatMap (·.passage.calls) ∧
      (e.accounts c o).map (·.passage.declared) = e'.declaration s ∧
      ∃ r, ((e.perform c).run o).1.answer.report? = some r ∧
        ((e.perform c).run o).1.events = e.statusEvents c ++ (e.accounts c o).flatMap (·.events) ++
          [.cycleCompleted r.reconciled r.skipped] := by
  have haccounts := e.map_passage_accounts c o
  rw [passages_of_pass? hpass] at haccounts
  have hevents := e.perform_events c o
  rw [Answer.completion] at hevents
  refine ⟨?_, ?_, ?_⟩
  · have hcalls := (calls_listed (e := e') (s := s) hlisted).1
    rw [← haccounts, List.flatMap_map] at hcalls
    rw [perform_pass hpass, hcalls]
  · have hdeclared := Passage.map_declared_ofPass (e'.declaration s) hlisted
    rw [← hdeclared]
    show _ = (e'.passages (.apply s) o).map _
    rw [← haccounts, List.map_map]
    rfl
  · obtain ⟨⟨r, hanswer⟩, -⟩ := apply_listed (e := e') (s := s) hlisted
    have hreport : ((e.perform c).run o).1.answer.report? = some r := by
      rw [perform_pass hpass, report?_wrapUp_eq, hanswer]
      rfl
    rw [hreport] at hevents
    exact ⟨r, hreport, hevents⟩

/-- A pass for which the interfaces cannot be listed tells nothing. -/
theorem told_of_unlisted {fault : Fault} {o' : Observed N} (hpass : e.pass? c = some (e', s))
    (hlisted : Site.interfaces.run o = (.error fault, o')) :
    ((e.perform c).run o).2.calls = o.calls ++ [.interfaces (.error fault)] ∧
      ((e.perform c).run o).1.answer.report? = none ∧
        ((e.perform c).run o).1.events = e.statusEvents c := by
  rw [perform_pass hpass, (apply_unlisted hlisted).1, report?_wrapUp_eq, events_wrapUp hpass,
    List.append_nil]
  exact ⟨(Observed.noting_run hlisted).2, rfl, rfl⟩

end Engine

namespace Manager
variable {N : Type} [Site N] {m : Manager} {c : Command} {e : Engine} {s : Snapshot}

/-- The events of a pass are a faithful account of its calls. If the interfaces can be listed, the
events are those of one account for each declared interface, in order, and at last the completion
with the counts of the report; each account tells what was asked for its interface, and all calls
are made there. Otherwise nothing is told of the pass. The observer gets the events in this order
if its channel has room. -/
theorem pass_told_faithfully (hpass : m.engine.pass? c = some (e, s)) (o : Observed N) :
    let told := ((m.engine.perform c).run o).1.events
    let accounts := m.engine.accounts c o
    let after := (m.perform c).run o
    (∀ a ∈ accounts, a.passage.ToldBy a.events) ∧
    ((∃ fault, after.2.calls = o.calls ++ [.interfaces (.error fault)] ∧
        after.1.1.report? = none ∧ told = m.engine.statusEvents c) ∨
      ∃ live r, after.2.calls =
          o.calls ++ .interfaces (.ok live) :: accounts.flatMap (·.passage.calls) ∧
        accounts.map (·.passage.declared) = e.declaration s ∧ after.1.1.report? = some r ∧
        told = m.engine.statusEvents c ++ accounts.flatMap (·.events) ++
          [.cycleCompleted r.reconciled r.skipped]) ∧
    (∀ ev ∈ m.engine.statusEvents c ++ accounts.flatMap (·.events), ev.isCompletion = false) ∧
    after.1.2.channel = m.channel.offerAll told ∧
    (m.channel.isOpen = true → m.channel.queue.length + told.length ≤ m.channel.capacity →
      after.1.2.channel.queue = m.channel.queue ++ told) := by
  intro told accounts after
  have hafter : after = (m.accept ((m.engine.perform c).run o).1, ((m.engine.perform c).run o).2) :=
    rfl
  have htold : ∀ a ∈ accounts, a.passage.ToldBy a.events := fun a ha => Engine.toldBy_of_mem ha
  refine ⟨htold, ?_, ?_, rfl, EventChannel.queue_offerAll⟩
  · rw [hafter]
    cases hlisted : (Site.interfaces : StateM (Observed N) _).run o with
    | mk listing o' =>
    cases listing with
    | error fault => exact .inl ⟨fault, Engine.told_of_unlisted hpass hlisted⟩
    | ok live =>
      obtain ⟨hcalls, hdeclared, r, hreport, hevents⟩ := Engine.told_of_listed hpass hlisted
      exact .inr ⟨live, r, hcalls, hdeclared, hreport, hevents⟩
  · refine List.forall_mem_append.mpr ⟨Engine.statusEvents_not_completion, ?_⟩
    intro ev hev
    obtain ⟨a, ha, hmem⟩ := List.mem_flatMap.mp hev
    exact Event.not_completion_of_isOfInterface (Engine.isOfInterface_of_mem ha ev hmem)

/-- A fresh reconciler with an observer that received nothing yet. -/
def monitored : Manager where
  engine := .fresh {}
  channel := { capacity := 8 }

theorem troubled_told : monitored.engine.pass? (.cycle Managed.demanding) =
      some (monitored.engine.passEngine Managed.demanding, Managed.demanding) ∧
    (∀ a ∈ monitored.engine.accounts (.cycle Managed.demanding) Managed.troubled.site,
      a.passage.ToldBy a.events) ∧
    ((monitored.perform (.cycle Managed.demanding)).run Managed.troubled.site).1.2.channel.queue =
      [.forwardedIpsChanged "02:00:00:00:00:0a" ["10.0.0.5", "::1"] ["10.0.0.6"],
        .addressAddFailed "02:00:00:00:00:0a" "10.0.0.5"
          "Network backend error: cannot add 10.0.0.5",
        .badInterface "eth2" (Mac.invalid "eth2").message,
        .cycleCompleted 1 2] := by
  have hpass : monitored.engine.pass? (.cycle Managed.demanding) =
      some (monitored.engine.passEngine Managed.demanding, Managed.demanding) := by decide +kernel
  obtain ⟨htold, -, -, -, hqueue⟩ := pass_told_faithfully hpass Managed.troubled.site
  refine ⟨hpass, htold, ?_⟩
  rw [hqueue rfl (by decide +kernel)]
  decide +kernel

end Manager
end ForwardedIp
