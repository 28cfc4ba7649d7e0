import ForwardedIp.Proofs.Passages
/-!
# What commands make of their passes

A command that makes no pass does not touch the site. One that makes a pass does nothing else there,
and its answer, its events and its engine follow from those of the pass.
-/
namespace ForwardedIp.Engine

variable {e e' : Engine} {c : Command} {s : Snapshot}

theorem perform_run {N α : Type} {x : StateM N (Step α)} {answer : α → Answer} {n n' : N}
    {r : Step α} (h : x.run n = (r, n')) :
    (do return (← x).mapAnswer answer : StateM N (Step Answer)).run n =
      (r.mapAnswer answer, n') := by
  rw [run_bind h]
  rfl

/-- What a command does that makes no pass. -/
def idleStep (e : Engine) : Command → Step Answer
  | .cycle s =>
      let gate := e.checkDisabled s
      let engine := if gate.answer then gate.engine else (e.changeOf s).engine
      ⟨.outcome (.ok (if gate.answer then .disabled else .unchanged)), gate.events,
        { engine with previous := some s }⟩
  | .reconcile s =>
      ⟨.outcome (.ok .disabled), (e.checkDisabled s).events, (e.checkDisabled s).engine⟩
  | .isDisabled s => (e.checkDisabled s).mapAnswer .flag
  | .hasChanged previous current => (e.checkChanged previous current).mapAnswer .flag
  | .setOverrides overrides => ⟨.done, [], e.setOverrides overrides⟩
  -- applying a snapshot always makes a pass
  | .apply _ => ⟨.done, [], e⟩

/-- A command that makes no pass does not look at the site. -/
theorem perform_idle {N : Type} [Site N] (h : e.pass? c = none) (n : N) :
    (e.perform c).run n = (e.idleStep c, n) := by
  cases c with
  | apply s => cases h
  | reconcile s =>
    cases hgate : (e.checkDisabled s).answer with
    | true =>
      have hrun : (e.reconcile s).run n =
          (⟨.ok .disabled, (e.checkDisabled s).events, (e.checkDisabled s).engine⟩, n) := by
        unfold reconcile
        simp only [hgate, if_true]
        rfl
      exact perform_run hrun
    | false => simp [pass?, hgate] at h
  | cycle s =>
    cases hgate : (e.checkDisabled s).answer with
    | true =>
      have hrun : (e.cycle s).run n = (⟨.ok .disabled, (e.checkDisabled s).events,
          { (e.checkDisabled s).engine with previous := some s }⟩, n) := by
        unfold cycle
        simp only [hgate, if_true]
        rfl
      simp only [idleStep, hgate, if_true]
      exact perform_run hrun
    | false =>
      cases hdue : e.due s with
      | true => simp [pass?, hgate, hdue] at h
      | false =>
        have hrun : (e.cycle s).run n = (⟨.ok .unchanged, (e.checkDisabled s).events,
            { (e.changeOf s).engine with previous := some s }⟩, n) := by
          unfold due changeOf at hdue
          unfold cycle
          simp only [hgate, hdue, Bool.false_eq_true, if_false]
          rfl
        simp only [idleStep, hgate, Bool.false_eq_true, if_false]
        exact perform_run hrun
  | isDisabled s => rfl
  | hasChanged previous current => rfl
  | setOverrides overrides => rfl

/-- What a command makes of its pass. -/
def wrapUp (e : Engine) (pass : Step (Except Fault Report)) : Command → Step Answer
  | .reconcile s => ⟨.outcome (pass.answer.map .applied),
      (e.checkDisabled s).events ++ pass.events, pass.engine⟩
  | .cycle s => ⟨.outcome (pass.answer.map .applied), (e.checkDisabled s).events ++ pass.events,
      { pass.engine with
        previous := some s
        retryPending := pass.engine.retryPending || !pass.answer.isOk }⟩
  | _ => pass.mapAnswer .report

theorem wrapUp_congr {pass pass' : Step (Except Fault Report)}
    (hanswer : pass.answer = pass'.answer) (hengine : pass.engine = pass'.engine) (c : Command) :
    (e.wrapUp pass c).answer = (e.wrapUp pass' c).answer ∧
      (e.wrapUp pass c).engine = (e.wrapUp pass' c).engine := by
  obtain ⟨answer, events, engine⟩ := pass
  obtain ⟨answer', events', engine'⟩ := pass'
  obtain rfl : answer = answer' := hanswer
  obtain rfl : engine = engine' := hengine
  cases c <;> exact ⟨rfl, rfl⟩

/-- A command that makes a pass does nothing else at the site. -/
theorem perform_pass {N : Type} [Site N] (h : e.pass? c = some (e', s)) (n : N) :
    (e.perform c).run n = (e.wrapUp ((e'.apply s).run n).1 c, ((e'.apply s).run n).2) := by
  cases c with
  | apply s' =>
    cases h
    exact perform_run rfl
  | reconcile s' =>
    cases hgate : (e.checkDisabled s').answer with
    | true => simp [pass?, hgate] at h
    | false =>
      simp only [pass?, hgate, Bool.false_eq_true, if_false] at h
      cases h
      refine perform_run (x := e.reconcile s) (r := ⟨_, _, _⟩) ?_
      unfold reconcile
      simp only [hgate, Bool.false_eq_true, if_false]
      rfl
  | cycle s' =>
    cases hgate : (e.checkDisabled s').answer with
    | true => simp [pass?, hgate] at h
    | false =>
      cases hdue : e.due s' with
      | false => simp [pass?, hgate, hdue] at h
      | true =>
        simp only [pass?, hgate, hdue, Bool.false_eq_true, if_false, if_true] at h
        cases h
        cases hpass : ((e.passEngine s).apply s).run n with
        | mk pass n' =>
        obtain ⟨answer, events, engine⟩ := pass
        refine perform_run (x := e.cycle s) (r := ⟨_, _, _⟩) ?_
        unfold due changeOf at hdue
        unfold cycle
        simp only [hgate, hdue, Bool.false_eq_true, if_false, if_true]
        change ((e.passEngine s).apply s >>= _).run n = _
        rw [run_bind hpass]
        cases answer with
        | ok report =>
          rw [Except.isOk, Except.toBool, Bool.not_true, Bool.or_false]
          rfl
        | error fault =>
          rw [Except.isOk, Except.toBool, Bool.not_false, Bool.or_true]
          rfl
  | isDisabled s' => cases h
  | hasChanged previous current => cases h
  | setOverrides overrides => cases h

end ForwardedIp.Engine
