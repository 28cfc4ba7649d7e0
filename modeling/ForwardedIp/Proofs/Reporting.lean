import ForwardedIp.Proofs.CommandPasses
import ForwardedIp.Proofs.Skipping
import ForwardedIp.Reconciler.Manager
/-!
# Reporting decides nothing

What was told before decides only what is told again, and nobody waits for the observer. So two
managers that differ in what they told and in their channels do the same for the same commands,
whatever their observers do meanwhile. A pass depends on even less: of all that an engine
remembers, only the local overrides matter to it.
-/
namespace ForwardedIp

/-- What an observer may do at any time. -/
inductive ObserverMove where
  | receive
  | drain
  | close

namespace EventChannel

/-- A channel after a move of its observer. -/
def after (c : EventChannel) : ObserverMove → EventChannel
  | .receive => { c with queue := c.queue.tail }
  | .drain => c.drain.2
  | .close => c.close

/-- A channel takes offers in order while its observer does as it likes. -/
inductive Hears : EventChannel → List Event → EventChannel → Prop
  | done (c : EventChannel) : Hears c [] c
  | offered {c c' : EventChannel} {e : Event} {es : List Event} :
      Hears (c.offer e) es c' → Hears c (e :: es) c'
  | moved {c c' : EventChannel} {es : List Event} (move : ObserverMove) :
      Hears (c.after move) es c' → Hears c es c'

theorem hears_offerAll (c : EventChannel) (es : List Event) : Hears c es (c.offerAll es) := by
  induction es generalizing c with
  | nil => exact .done c
  | cons e es ih => exact .offered (ih (c.offer e))

end EventChannel

namespace Engine

/-- An engine that has told nothing. -/
def untold (e : Engine) : Engine := { e with notices := {} }

theorem exists_notices {e e' : Engine} (h : e.untold = e'.untold) :
    ∃ notices, e' = { e with notices } := by
  obtain ⟨overrides, memo, notices, previous, retryPending⟩ := e
  obtain ⟨overrides', memo', notices', previous', retryPending'⟩ := e'
  cases h
  exact ⟨notices', rfl⟩

end Engine

namespace Step
variable {α : Type}

/-- Two steps answer the same and remember the same, but for what they told. -/
structure SameUntold (step step' : Step α) : Prop where
  answer_eq : step.answer = step'.answer
  untold_eq : step.engine.untold = step'.engine.untold

end Step

namespace Engine
variable {e e' : Engine}

/-- What was told does not decide whether a pass is made. -/
theorem pass?_with_notices (e : Engine) (notices : Notices) (c : Command) :
    ({ e with notices } : Engine).pass? c =
      (e.pass? c).map fun pass => ({ pass.1 with notices }, pass.2) := by
  cases c with
  | apply s => rfl
  | reconcile s =>
    have hgate : (({ e with notices } : Engine).checkDisabled s).answer =
        (e.checkDisabled s).answer := rfl
    simp only [pass?, hgate]
    cases (e.checkDisabled s).answer <;> rfl
  | cycle s =>
    have hgate : (({ e with notices } : Engine).checkDisabled s).answer =
        (e.checkDisabled s).answer := rfl
    have hdue : ({ e with notices } : Engine).due s = e.due s := rfl
    simp only [pass?, hgate, hdue]
    cases (e.checkDisabled s).answer with
    | true => rfl
    | false => cases e.due s <;> rfl
  | isDisabled s => rfl
  | hasChanged previous current => rfl
  | setOverrides overrides => rfl

theorem idleStep_sameUntold (h : e.untold = e'.untold) (c : Command) :
    (e.idleStep c).SameUntold (e'.idleStep c) := by
  obtain ⟨notices, rfl⟩ := exists_notices h
  cases c with
  | cycle s =>
    have hgate : (({ e with notices } : Engine).checkDisabled s).answer =
        (e.checkDisabled s).answer := rfl
    simp only [idleStep, hgate]
    cases (e.checkDisabled s).answer <;> exact ⟨rfl, rfl⟩
  | reconcile s => exact ⟨rfl, rfl⟩
  | apply s => exact ⟨rfl, rfl⟩
  | isDisabled s => exact ⟨rfl, rfl⟩
  | hasChanged previous current => exact ⟨rfl, rfl⟩
  | setOverrides overrides => exact ⟨rfl, rfl⟩

theorem wrapUp_sameUntold {pass pass' : Step (Except Fault Report)} (h : pass.SameUntold pass')
    (e e' : Engine) (c : Command) : (e.wrapUp pass c).SameUntold (e'.wrapUp pass' c) := by
  obtain ⟨answer, events, engine⟩ := pass
  obtain ⟨answer', events', engine'⟩ := pass'
  obtain ⟨rfl, huntold⟩ := h
  obtain ⟨notices, rfl⟩ := exists_notices huntold
  cases c <;> exact ⟨rfl, rfl⟩

variable {N : Type} [Site N]

/-- A pass depends on the local overrides and on nothing else that an engine remembers. -/
theorem apply_congr (h : e.overrides = e'.overrides) (s : Snapshot) (n : N) :
    ((e.apply s).run n).1.answer = ((e'.apply s).run n).1.answer ∧
      ((e.apply s).run n).2 = ((e'.apply s).run n).2 := by
  unfold apply
  cases hlisted : (Site.interfaces : StateM N (Except Fault (List LiveInterface))).run n with
  | mk listed n₁ =>
  rw [run_bind hlisted, run_bind hlisted]
  cases listed with
  | error fault => exact ⟨rfl, rfl⟩
  | ok live =>
    rw [declaration_congr h]
    exact ⟨rfl, rfl⟩

/-- A pass remembers the same whatever was told before it, but for what is told after it. -/
theorem apply_sameUntold (h : e.untold = e'.untold) (s : Snapshot) (n : N) :
    ((e.apply s).run n).1.SameUntold ((e'.apply s).run n).1 ∧
      ((e.apply s).run n).2 = ((e'.apply s).run n).2 := by
  obtain ⟨notices, rfl⟩ := exists_notices h
  unfold apply
  cases hlisted : (Site.interfaces : StateM N (Except Fault (List LiveInterface))).run n with
  | mk listed n₁ =>
  rw [run_bind hlisted, run_bind hlisted]
  cases listed with
  | error fault => exact ⟨⟨rfl, rfl⟩, rfl⟩
  | ok live => exact ⟨⟨rfl, rfl⟩, rfl⟩

/-- A command does the same whatever was told before it. -/
theorem perform_sameUntold (h : e.untold = e'.untold) (c : Command) (n : N) :
    ((e.perform c).run n).1.SameUntold ((e'.perform c).run n).1 ∧
      ((e.perform c).run n).2 = ((e'.perform c).run n).2 := by
  obtain ⟨notices, rfl⟩ := exists_notices h
  have hpass' := pass?_with_notices e notices c
  cases hpass : e.pass? c with
  | none =>
    rw [hpass] at hpass'
    rw [perform_idle hpass, perform_idle hpass']
    exact ⟨idleStep_sameUntold h c, rfl⟩
  | some pass =>
    obtain ⟨e₁, s⟩ := pass
    rw [hpass] at hpass'
    have huntold : e₁.untold = ({ e₁ with notices } : Engine).untold := rfl
    obtain ⟨hstep, hsite⟩ := apply_sameUntold huntold s n
    rw [perform_pass hpass, perform_pass hpass']
    exact ⟨wrapUp_sameUntold hstep e _ c, hsite⟩

end Engine

/-- What is there after a command but what was told: the answer, the site with the calls so far,
and the memo. -/
structure Outcome (N : Type) where
  answer : Answer
  site : Observed N
  memo : TransitionMemo

namespace Engine
variable {N : Type} [Site N] {e e' : Engine}

/-- What comes of commands in order. -/
def outcomes (e : Engine) (o : Observed N) : List Command → List (Outcome N)
  | [] => []
  | c :: cs =>
      let (step, o') := (e.perform c).run o
      ⟨step.answer, o', step.engine.memo⟩ :: step.engine.outcomes o' cs

theorem outcomes_cons (e : Engine) (o : Observed N) (c : Command) (cs : List Command) :
    e.outcomes o (c :: cs) =
      ⟨((e.perform c).run o).1.answer, ((e.perform c).run o).2,
        ((e.perform c).run o).1.engine.memo⟩ ::
        ((e.perform c).run o).1.engine.outcomes ((e.perform c).run o).2 cs := rfl

theorem outcomes_congr (h : e.untold = e'.untold) (o : Observed N) (cs : List Command) :
    e.outcomes o cs = e'.outcomes o cs := by
  induction cs generalizing e e' o with
  | nil => rfl
  | cons c cs ih =>
    obtain ⟨⟨hanswer, huntold⟩, hsite⟩ := perform_sameUntold h c o
    have hmemo : ((e.perform c).run o).1.engine.memo = ((e'.perform c).run o).1.engine.memo := by
      obtain ⟨notices, heq⟩ := exists_notices huntold
      rw [heq]
    rw [outcomes_cons, outcomes_cons, hanswer, hsite, hmemo, ih huntold]

theorem outcomes_apply (e : Engine) (o : Observed N) (s : Snapshot) :
    e.outcomes o [.apply s] =
      [⟨.report ((e.apply s).run o).1.answer, ((e.apply s).run o).2, e.memo⟩] := by
  have hmemo : ((e.apply s).run o).1.engine.memo = e.memo := (applies rfl).engine_eq.1
  rw [← hmemo]
  rfl

end Engine

namespace Manager
variable {N : Type} [Site N] {m m' : Manager} {o o' : Observed N} {c : Command} {cs : List Command}
  {found : List (Outcome N)}

/-- The runs of a manager for commands in order. While a command is carried out and between
commands, its observer may do anything. -/
inductive Runs : Manager → Observed N → List Command → List (Outcome N) → Prop
  | done (m : Manager) (o : Observed N) : Runs m o [] []
  | performed {m : Manager} {o o' : Observed N} {c : Command} {cs : List Command}
      {step : Step Answer} {channel : EventChannel} {found : List (Outcome N)}
      (hperform : (m.engine.perform c).run o = (step, o'))
      (hheard : m.channel.Hears step.events channel)
      (rest : Runs ⟨step.engine, channel⟩ o' cs found) :
      Runs m o (c :: cs) (⟨step.answer, o', step.engine.memo⟩ :: found)

/-- A run may go as the manager does while its observer does nothing. -/
theorem Runs.perform {answer : Answer} (hperform : (m.perform c).run o = ((answer, m'), o'))
    (rest : Runs m' o' cs found) : Runs m o (c :: cs) (⟨answer, o', m'.engine.memo⟩ :: found) := by
  cases hengine : (m.engine.perform c).run o with
  | mk step o₁ =>
  unfold Manager.perform at hperform
  rw [run_bind hengine] at hperform
  cases hperform
  exact .performed hengine (EventChannel.hears_offerAll m.channel step.events) rest

theorem runs_outcomes (m : Manager) (o : Observed N) (cs : List Command) :
    Runs m o cs (m.engine.outcomes o cs) := by
  induction cs generalizing m o with
  | nil => exact .done m o
  | cons c cs ih => exact .perform rfl (ih _ _)

/-- The observer decides nothing about a run. -/
theorem runs_iff : Runs m o cs found ↔ found = m.engine.outcomes o cs := by
  constructor
  · intro h
    induction h with
    | done m o => rfl
    | performed hperform hheard rest ih => rw [ih, Engine.outcomes, hperform]
  · rintro rfl
    exact runs_outcomes m o cs

/-- What was told and who listens decides nothing. Managers that differ in nothing else have the
same outcomes for the same commands at the same site, whatever their observers do on the way. If
they have no more than the local overrides in common, applying a snapshot still answers the same and
does the same at the site. -/
theorem runs_independent_of_reporting (m m' : Manager) (o : Observed N) :
    (m.engine.untold = m'.engine.untold → ∀ cs, ∃ outcomes : List (Outcome N), ∀ found,
      (Runs m o cs found ↔ found = outcomes) ∧ (Runs m' o cs found ↔ found = outcomes)) ∧
    (m.engine.overrides = m'.engine.overrides → ∀ s, ∃ answer o', ∀ found,
      (Runs m o [.apply s] found ↔ found = [⟨answer, o', m.engine.memo⟩]) ∧
        (Runs m' o [.apply s] found ↔ found = [⟨answer, o', m'.engine.memo⟩])) := by
  constructor
  · intro huntold cs
    refine ⟨m.engine.outcomes o cs, fun found => ⟨runs_iff, ?_⟩⟩
    rw [runs_iff, Engine.outcomes_congr huntold]
  · intro hoverrides s
    obtain ⟨hanswer, hsite⟩ := Engine.apply_congr hoverrides s o
    refine ⟨.report ((m.engine.apply s).run o).1.answer, ((m.engine.apply s).run o).2,
      fun found => ⟨?_, ?_⟩⟩
    · rw [runs_iff, Engine.outcomes_apply]
    · rw [runs_iff, Engine.outcomes_apply, hanswer, hsite]

/-- A manager that told of a bad hardware address to an observer that received nothing yet. -/
def backlogged : Manager where
  engine := { notices := { macs := ⟨["eth0"]⟩ } }
  channel := { capacity := 1, queue := [.badInterface "eth0" (Mac.invalid "eth0").message] }

/-- A manager to which nobody listens, with a memo and a retry that is pending. -/
def unheard (memo : TransitionMemo) (retryPending : Bool) : Manager where
  engine := { memo, retryPending }
  channel := { capacity := 8, isOpen := false }

/-- The bad hardware address is declared, and a bad forwarded address next to a good one. -/
def flawed : Snapshot where
  interfaces := [⟨"eth0", []⟩, ⟨"02:00:00:00:00:0a", ["10.0.0.5", "10.0.0"]⟩]

def flawedSite : Observed (Machine MemoryHost MemoryLedger) where
  site := .single "02:00:00:00:00:0a" [] []

theorem backlogged_independent :
    backlogged.engine.untold = (unheard {} false).engine.untold ∧
    (∀ cs, ∃ outcomes : List (Outcome (Machine MemoryHost MemoryLedger)), ∀ found,
      (Runs backlogged flawedSite cs found ↔ found = outcomes) ∧
        (Runs (unheard {} false) flawedSite cs found ↔ found = outcomes)) ∧
    ∃ answer o', ∀ found,
      (Runs backlogged flawedSite [.apply flawed] found ↔ found = [⟨answer, o', {}⟩]) ∧
        (Runs (unheard { disabled := true } true) flawedSite [.apply flawed] found ↔
          found = [⟨answer, o', { disabled := true }⟩]) :=
  ⟨rfl, (runs_independent_of_reporting backlogged (unheard {} false) flawedSite).1 rfl,
    (runs_independent_of_reporting backlogged (unheard { disabled := true } true) flawedSite).2 rfl
      flawed⟩

end Manager
end ForwardedIp
