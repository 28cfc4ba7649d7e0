import ForwardedIp.Proofs.Accounting
import ForwardedIp.Proofs.Frames
/-!
# What is told in a run

A command tells whether the manager is disabled, then of each passage of its pass in order, and at
last that the pass completed. What is told of a passage depends on what was told before it, so a
fact about all that was told so far goes through a run command by command.
-/
namespace ForwardedIp

/-- Whether an event is about one interface. -/
def Event.isOfInterface : Event → Bool
  | .managerStatus _ _ | .cycleCompleted _ _ => false
  | _ => true

/-- A passage with the events that are told of it. -/
structure Account (N : Type) where
  passage : Passage N
  events : List Event

namespace Notices
variable {α N : Type}

theorem tellAll_append (tell : Notices → α → List Event × Notices) (n : Notices)
    (told : List Event) (as : List α) :
    as.foldl (fun (told, n) a =>
      let (events, n) := tell n a
      (told ++ events, n)) (told, n) =
      (told ++ (tellAll tell n as).1, (tellAll tell n as).2) := by
  induction as generalizing told n with
  | nil => simp [tellAll]
  | cons a as ih =>
    have hrest : tellAll tell n (a :: as) =
        ((tell n a).1 ++ (tellAll tell (tell n a).2 as).1, (tellAll tell (tell n a).2 as).2) :=
      ih (tell n a).2 ([] ++ (tell n a).1)
    rw [List.foldl_cons, hrest, ← List.append_assoc]
    exact ih (tell n a).2 (told ++ (tell n a).1)

theorem tellAll_cons (tell : Notices → α → List Event × Notices) (n : Notices) (a : α)
    (as : List α) : tellAll tell n (a :: as) =
      ((tell n a).1 ++ (tellAll tell (tell n a).2 as).1, (tellAll tell (tell n a).2 as).2) :=
  tellAll_append tell (tell n a).2 (tell n a).1 as

/-- A hardware address is told of unless it was before. -/
theorem badMac_eq (n : Notices) (raw reason : String) : n.badMac raw reason =
    (if n.macs.contains raw then [] else [.badInterface raw reason],
      { n with macs := n.macs.insert raw }) := by
  unfold badMac BadInputSet.firstReport
  cases n.macs.contains raw <;> rfl

/-- A forwarded address is told of unless it was before. -/
theorem badIp_eq (n : Notices) (mac : Mac) (ip : String) : n.badIp mac ip =
    (if n.ips.contains (ipKey mac ip) then [] else [.badForwardedIp mac.text ip],
      { n with ips := n.ips.insert (ipKey mac ip) }) := by
  unfold badIp BadInputSet.firstReport
  cases n.ips.contains (ipKey mac ip) <;> rfl

section Forall
variable {P : Event → Prop}

theorem forall_badMac {raw reason : String} (h : P (.badInterface raw reason)) (n : Notices) :
    ∀ e ∈ (n.badMac raw reason).1, P e := by
  intro e he
  rw [badMac_eq] at he
  obtain ⟨-, hevent⟩ := List.mem_ite_nil_left.mp he
  exact List.mem_singleton.mp hevent ▸ h

theorem forall_badIp {mac : Mac} {ip : String} (h : P (.badForwardedIp mac.text ip))
    (n : Notices) : ∀ e ∈ (n.badIp mac ip).1, P e := by
  intro e he
  rw [badIp_eq] at he
  obtain ⟨-, hevent⟩ := List.mem_ite_nil_left.mp he
  exact List.mem_singleton.mp hevent ▸ h

theorem forall_changeEvent (w : Work)
    (h : ∀ added removed, P (.forwardedIpsChanged w.mac.text added removed)) :
    ∀ e ∈ changeEvent w, P e := by
  intro e he
  obtain ⟨-, hevent⟩ := List.mem_ite_nil_left.mp he
  exact List.mem_singleton.mp hevent ▸ h _ _

theorem forall_failureEvents (w : Work)
    (hadd : ∀ ip error, P (.addressAddFailed w.mac.text ip error))
    (hremove : ∀ ip error, P (.addressRemoveFailed w.mac.text ip error)) :
    ∀ e ∈ failureEvents w, P e := by
  have hfailures : ∀ (event : String → String → Event) (attempts : List Attempt),
      (∀ ip error, P (event ip error)) →
        ∀ e ∈ attempts.filterMap fun a => a.fault?.map fun fault => event a.ip fault.message,
          P e := by
    intro event attempts hevent e he
    obtain ⟨a, -, ha⟩ := List.mem_filterMap.mp he
    obtain ⟨fault, -, rfl⟩ := Option.map_eq_some_iff.mp ha
    exact hevent a.ip fault.message
  exact List.forall_mem_append.mpr ⟨hfailures _ w.binds hadd, hfailures _ w.unbinds hremove⟩

theorem forall_tellAll {tell : Notices → α → List Event × Notices}
    (h : ∀ n a, ∀ e ∈ (tell n a).1, P e) (n : Notices) (as : List α) :
    ∀ e ∈ (tellAll tell n as).1, P e := by
  induction as generalizing n with
  | nil => exact fun e he => absurd he List.not_mem_nil
  | cons a as ih =>
    rw [tellAll_cons]
    exact List.forall_mem_append.mpr ⟨h n a, ih (tell n a).2⟩

end Forall

/-- Every event that is told of a visit is about its interface. -/
theorem isOfInterface_tell (n : Notices) (v : Visit) :
    ∀ e ∈ (n.tell v).1, e.isOfInterface = true := by
  cases v with
  | unparseable raw => exact n.forall_badMac (by rfl)
  | unmatched raw mac => exact n.forall_badMac (by rfl)
  | unreadable mac iface fault => exact fun e he => absurd he List.not_mem_nil
  | unrecorded mac iface fault => exact fun e he => absurd he List.not_mem_nil
  | reconciled w =>
    have hbad : ∀ e ∈ (tellAll (fun n => n.badIp w.mac) n w.rejected).1, e.isOfInterface = true :=
      forall_tellAll (fun n ip => n.forall_badIp (by rfl)) n w.rejected
    have hchange : ∀ e ∈ changeEvent w, e.isOfInterface = true :=
      forall_changeEvent w fun _ _ => by rfl
    have hfailures : ∀ e ∈ failureEvents w, e.isOfInterface = true :=
      forall_failureEvents w (fun _ _ => by rfl) fun _ _ => by rfl
    exact List.forall_mem_append.mpr ⟨List.forall_mem_append.mpr ⟨hbad, hchange⟩, hfailures⟩

/-- The passages of a pass, each with what is told of it, given what was told before. -/
def accounts (n : Notices) : List (Passage N) → List (Account N)
  | [] => []
  | p :: ps => ⟨p, (n.tell p.visit).1⟩ :: accounts (n.tell p.visit).2 ps

theorem map_passage_accounts (n : Notices) (ps : List (Passage N)) :
    (n.accounts ps).map (·.passage) = ps := by
  induction ps generalizing n with
  | nil => rfl
  | cons p ps ih => rw [accounts, List.map_cons, ih]

theorem tellAll_visits (n : Notices) (ps : List (Passage N)) :
    (tellAll tell n (ps.map (·.visit))).1 = (n.accounts ps).flatMap (·.events) := by
  induction ps generalizing n with
  | nil => rfl
  | cons p ps ih => rw [List.map_cons, tellAll_cons, ih, accounts, List.flatMap_cons]

theorem mem_accounts {n : Notices} {ps : List (Passage N)} {a : Account N}
    (ha : a ∈ n.accounts ps) :
    a.passage ∈ ps ∧ ∃ earlier, a.events = (tell earlier a.passage.visit).1 := by
  induction ps generalizing n with
  | nil => cases ha
  | cons p ps ih =>
    rcases List.mem_cons.mp ha with rfl | ha
    · exact ⟨List.mem_cons_self, n, rfl⟩
    · exact ⟨List.mem_cons_of_mem p (ih ha).1, (ih ha).2⟩

end Notices

/-- The event that a pass completed, if the answer is of one that did. -/
def Answer.completion (a : Answer) : List Event :=
  a.report?.toList.map fun r => .cycleCompleted r.reconciled r.skipped

namespace Engine
variable {N : Type} [Site N] {e e' : Engine} {c : Command} {s : Snapshot}

/-- What a command tells of the flag that disables the manager. -/
def statusEvents (e : Engine) : Command → List Event
  | .cycle s | .reconcile s | .isDisabled s => (e.checkDisabled s).events
  | .apply _ | .hasChanged _ _ | .setOverrides _ => []

/-- The passages of a command, each with what is told of it. -/
def accounts (e : Engine) (c : Command) (n : N) : List (Account N) :=
  e.notices.accounts (e.passages c n)

theorem status_of_mem {ev : Event} (hev : ev ∈ e.statusEvents c) :
    ∃ disabled, ev = .managerStatus statusComponent disabled := by
  have hgate : ∀ s, ev ∈ (e.checkDisabled s).events →
      ∃ disabled, ev = .managerStatus statusComponent disabled := by
    intro s hmem
    obtain ⟨-, hstatus⟩ := List.mem_ite_nil_right.mp hmem
    exact ⟨_, List.mem_singleton.mp hstatus⟩
  cases c with
  | cycle s => exact hgate s hev
  | reconcile s => exact hgate s hev
  | isDisabled s => exact hgate s hev
  | apply s => cases hev
  | hasChanged previous current => cases hev
  | setOverrides overrides => cases hev

theorem isOfInterface_of_mem {n : N} {a : Account N} (ha : a ∈ e.accounts c n) :
    ∀ ev ∈ a.events, ev.isOfInterface = true := by
  obtain ⟨-, earlier, hevents⟩ := Notices.mem_accounts ha
  rw [hevents]
  exact earlier.isOfInterface_tell a.passage.visit

theorem notices_of_pass? (h : e.pass? c = some (e', s)) : e'.notices = e.notices := by
  cases c with
  | apply s' =>
    cases h
    rfl
  | reconcile s' =>
    simp only [pass?] at h
    split at h
    · cases h
    · cases h
      rfl
  | cycle s' =>
    simp only [pass?] at h
    split at h
    · cases h
    · split at h
      · cases h
        rfl
      · cases h
  | isDisabled s' => cases h
  | hasChanged previous current => cases h
  | setOverrides overrides => cases h

theorem report?_wrapUp_eq (e : Engine) (pass : Step (Except Fault Report)) (c : Command) :
    (e.wrapUp pass c).answer.report? = pass.answer.toOption := by
  obtain ⟨answer, events, engine⟩ := pass
  cases answer with
  | error fault => cases c <;> rfl
  | ok report => cases c <;> rfl

theorem events_idleStep (h : e.pass? c = none) : (e.idleStep c).events = e.statusEvents c := by
  cases c with
  | apply s => cases h
  | _ => rfl

theorem events_wrapUp (h : e.pass? c = some (e', s)) (pass : Step (Except Fault Report)) :
    (e.wrapUp pass c).events = e.statusEvents c ++ pass.events := by
  cases c with
  | apply s' => rfl
  | reconcile s' => rfl
  | cycle s' => rfl
  | isDisabled s' => cases h
  | hasChanged previous current => cases h
  | setOverrides overrides => cases h

/-- A pass tells of its passages, and that it completed if it did. -/
theorem apply_events (e : Engine) (s : Snapshot) (n : N) :
    ((e.apply s).run n).1.events =
      (e.notices.accounts (Passage.ofPass (e.declaration s) n)).flatMap (·.events) ++
        ((e.apply s).run n).1.answer.toOption.toList.map
          fun r => .cycleCompleted r.reconciled r.skipped := by
  cases happly : (e.apply s).run n with
  | mk step n' =>
  cases applies happly with
  | unlisted hlisted =>
    rw [Passage.ofPass, hlisted]
    rfl
  | @visited live visits n₁ _ hlisted hvisits =>
    have hmap := Passage.map_visit_ofVisits live (e.declaration s) n₁
    rw [hvisits] at hmap
    rw [Passage.ofPass, hlisted, ← Notices.tellAll_visits, hmap]
    rfl

/-- A pass remembers the bad input of its passages. -/
theorem notices_apply (e : Engine) (s : Snapshot) (n : N) :
    ((e.apply s).run n).1.engine.notices = (Notices.tellAll Notices.tell e.notices
      ((Passage.ofPass (e.declaration s) n).map (·.visit))).2 := by
  cases happly : (e.apply s).run n with
  | mk step n' =>
  cases applies happly with
  | unlisted hlisted =>
    rw [Passage.ofPass, hlisted]
    rfl
  | @visited live visits n₁ _ hlisted hvisits =>
    rw [Passage.ofPass, hlisted]
    show _ = (Notices.tellAll _ _ ((Passage.ofVisits live (e.declaration s) n₁).map _)).2
    rw [Passage.map_visit_ofVisits, hvisits]
    rfl

theorem notices_perform (e : Engine) (c : Command) (n : N) :
    ((e.perform c).run n).1.engine.notices =
      (Notices.tellAll Notices.tell e.notices ((e.passages c n).map (·.visit))).2 := by
  cases hpass : e.pass? c with
  | none =>
    have hidle : (e.idleStep c).engine.notices = e.notices := by
      cases c with
      | cycle s =>
        simp only [idleStep]
        cases (e.checkDisabled s).answer <;> rfl
      | _ => rfl
    rw [perform_idle hpass, hidle, passages, hpass]
    rfl
  | some pass =>
    have hwrapUp (step : Step (Except Fault Report)) :
        (e.wrapUp step c).engine.notices = step.engine.notices := by
      cases c <;> rfl
    rw [perform_pass hpass, hwrapUp, notices_apply, notices_of_pass? hpass, passages, hpass]

/-- What a command tells: whether the manager is disabled, each passage of its pass, and that the
pass completed. -/
theorem perform_events (e : Engine) (c : Command) (n : N) :
    ((e.perform c).run n).1.events = e.statusEvents c ++
      (e.accounts c n).flatMap (·.events) ++ ((e.perform c).run n).1.answer.completion := by
  cases hpass : e.pass? c with
  | none =>
    rw [perform_idle hpass, events_idleStep hpass, accounts, passages, hpass, Answer.completion,
      report?_idleStep hpass]
    exact ((List.append_nil _).trans (List.append_nil _)).symm
  | some pass =>
    rw [perform_pass hpass, events_wrapUp hpass, apply_events, notices_of_pass? hpass, accounts,
      passages, hpass, Answer.completion, report?_wrapUp_eq, List.append_assoc]

end Engine

namespace Turn
variable {N : Type} [Site N]

def events (t : Turn N) : List Event :=
  match t.happening with
  | .command c => ((t.start.engine.perform c).run t.start.site).1.events
  | .outside _ => []

end Turn

namespace Managed
variable {N : Type} [Site N] {m : Managed N}

/-- The events that are offered in a run. -/
def events (m : Managed N) (hs : List (Happening N)) : List Event :=
  (m.turns hs).flatMap Turn.events

/-- What every command keeps, of the engine and all that was told so far, a run keeps. -/
theorem keeps_told {Good : Engine → List Event → Prop}
    (hstep : ∀ e told c (o : Observed N), Good e told →
      Good ((e.perform c).run o).1.engine (told ++ ((e.perform c).run o).1.events))
    {told : List Event} (h : Good m.engine told) (hs : List (Happening N)) :
    Good (m.run hs).engine (told ++ m.events hs) := by
  induction hs generalizing m told with
  | nil =>
    rw [events, turns, List.flatMap_nil, List.append_nil]
    exact h
  | cons happening hs ih =>
    have hfirst : Good (m.step happening).engine (told ++ Turn.events ⟨m, happening⟩) := by
      cases happening with
      | command c => exact hstep m.engine told c m.site h
      | outside change =>
        rw [Turn.events, List.append_nil]
        exact h
    have hrest := ih hfirst
    rw [List.append_assoc] at hrest
    exact hrest

end Managed
end ForwardedIp
