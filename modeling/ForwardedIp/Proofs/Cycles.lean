import ForwardedIp.Proofs.SiteLaws
import ForwardedIp.Reconciler.Command
/-!
# How a cycle goes

A pass ends in one of two ways, a cycle in one of four. Each end says what was asked on the way,
what the site went through, and what is remembered.
-/
namespace ForwardedIp.Engine

variable {N : Type} [Site N] {e : Engine} {s : Snapshot} {n n' : N}

/-- How a pass goes, by its two ends. -/
inductive Applies (e : Engine) (s : Snapshot) (n : N) : Step (Except Fault Report) → N → Prop where
  | unlisted {fault : Fault} {n' : N} (hlisted : Site.interfaces.run n = (.error fault, n')) :
      Applies e s n ⟨.error fault, [], e⟩ n'
  | visited {live : List LiveInterface} {visits : List Visit} {n₁ n' : N}
      (hlisted : Site.interfaces.run n = (.ok live, n₁))
      (hvisits : ((e.declaration s).mapM (Visit.run live)).run n₁ = (visits, n')) :
      Applies e s n ⟨.ok (e.conclude visits).answer, (e.conclude visits).events,
        (e.conclude visits).engine⟩ n'

theorem applies {step : Step (Except Fault Report)} (h : (e.apply s).run n = (step, n')) :
    Applies e s n step n' := by
  unfold apply at h
  cases hlisted : (Site.interfaces : StateM N (Except Fault (List LiveInterface))).run n with
  | mk answer n₁ =>
  rw [run_bind hlisted] at h
  cases answer with
  | error fault =>
    cases h
    exact .unlisted hlisted
  | ok live =>
    cases hvisits : ((e.declaration s).mapM (Visit.run live)).run n₁ with
    | mk visits n₂ =>
    simp only at h
    rw [run_bind hvisits] at h
    cases h
    exact .visited hlisted hvisits

theorem Applies.engine_eq {step : Step (Except Fault Report)} (h : Applies e s n step n') :
    step.engine.memo = e.memo ∧ step.engine.overrides = e.overrides := by
  cases h with
  | unlisted hlisted => exact ⟨rfl, rfl⟩
  | visited hlisted hvisits => exact ⟨rfl, rfl⟩

/-- How a pass goes that the manager may refuse because it is disabled. -/
inductive Reconciles (e : Engine) (s : Snapshot) (n : N) :
    Step (Except Fault CycleOutcome) → N → Prop where
  | disabled (hgate : (e.checkDisabled s).answer = true) :
      Reconciles e s n ⟨.ok .disabled, (e.checkDisabled s).events, (e.checkDisabled s).engine⟩ n
  | passed {pass : Step (Except Fault Report)} {n' : N}
      (hgate : (e.checkDisabled s).answer = false)
      (hpass : Applies (e.checkDisabled s).engine s n pass n') :
      Reconciles e s n ⟨pass.answer.map .applied, (e.checkDisabled s).events ++ pass.events,
        pass.engine⟩ n'

theorem reconciles {step : Step (Except Fault CycleOutcome)}
    (h : (e.reconcile s).run n = (step, n')) : Reconciles e s n step n' := by
  unfold reconcile at h
  cases hgate : (e.checkDisabled s).answer with
  | true =>
    simp only [hgate, if_true] at h
    cases h
    exact .disabled hgate
  | false =>
    simp only [hgate, Bool.false_eq_true, if_false] at h
    cases hpass : ((e.checkDisabled s).engine.apply s).run n with
    | mk pass n₁ =>
    rw [run_bind hpass] at h
    cases h
    exact .passed hgate (applies hpass)

/-- The question that a cycle asks about changes, once the manager is known not to be disabled. -/
def changeOf (e : Engine) (s : Snapshot) : Step Bool :=
  (e.checkDisabled s).engine.checkChanged (e.checkDisabled s).engine.previous s

/-- Whether a cycle of a manager that is not disabled makes a pass. -/
def due (e : Engine) (s : Snapshot) : Bool :=
  (e.changeOf s).answer || (e.changeOf s).engine.retryPending

/-- A cycle makes no pass if nothing has to be tried again, the snapshot declares what the last one
did, and the failover settings are those remembered. -/
theorem of_not_due (h : e.due s = false) : e.retryPending = false ∧
    TransitionMemo.declared e.previous = s.interfaces ∧
      (e.settings s).failoverAddresses = e.memo.failoverAddresses ∧
        (e.settings s).failoverEnabled = e.memo.failoverEnabled := by
  obtain ⟨hchange, hretry⟩ := Bool.or_eq_false_iff.mp h
  have hdiffers : (e.checkDisabled s).engine.memo.differs e.previous s
      ((e.checkDisabled s).engine.settings s) = false := hchange
  simp only [TransitionMemo.differs, Bool.or_eq_false_iff, bne_eq_false_iff_eq] at hdiffers
  obtain ⟨⟨hdeclared, henabled⟩, haddresses⟩ := hdiffers
  exact ⟨hretry, hdeclared, haddresses, henabled⟩

/-- The engine with which a cycle makes its pass. -/
def passEngine (e : Engine) (s : Snapshot) : Engine :=
  { (e.changeOf s).engine with previous := none }

/-- How a cycle goes, by its four ends. -/
inductive Cycles (e : Engine) (s : Snapshot) (n : N) :
    Step (Except Fault CycleOutcome) → N → Prop where
  | disabled (hgate : (e.checkDisabled s).answer = true) :
      Cycles e s n ⟨.ok .disabled, (e.checkDisabled s).events,
        { (e.checkDisabled s).engine with previous := some s }⟩ n
  | unchanged (hgate : (e.checkDisabled s).answer = false) (hdue : e.due s = false) :
      Cycles e s n ⟨.ok .unchanged, (e.checkDisabled s).events,
        { (e.changeOf s).engine with previous := some s }⟩ n
  | applied {report : Report} {events : List Event} {engine : Engine} {n' : N}
      (hgate : (e.checkDisabled s).answer = false) (hdue : e.due s = true)
      (hpass : Applies (e.passEngine s) s n ⟨.ok report, events, engine⟩ n') :
      Cycles e s n ⟨.ok (.applied report), (e.checkDisabled s).events ++ events,
        { engine with previous := some s }⟩ n'
  | failed {fault : Fault} {events : List Event} {engine : Engine} {n' : N}
      (hgate : (e.checkDisabled s).answer = false) (hdue : e.due s = true)
      (hpass : Applies (e.passEngine s) s n ⟨.error fault, events, engine⟩ n') :
      Cycles e s n ⟨.error fault, (e.checkDisabled s).events ++ events,
        { engine with previous := some s, retryPending := true }⟩ n'

theorem cycles {step : Step (Except Fault CycleOutcome)} (h : (e.cycle s).run n = (step, n')) :
    Cycles e s n step n' := by
  unfold cycle at h
  cases hgate : (e.checkDisabled s).answer with
  | true =>
    simp only [hgate, if_true] at h
    cases h
    exact .disabled hgate
  | false =>
    simp only [hgate, Bool.false_eq_true, if_false] at h
    cases hdue : e.due s with
    | false =>
      have hdue' := hdue
      unfold due changeOf at hdue'
      rw [hdue'] at h
      cases h
      exact .unchanged hgate hdue
    | true =>
      have hdue' := hdue
      unfold due changeOf at hdue'
      rw [hdue', if_pos rfl] at h
      cases hpass : ((e.passEngine s).apply s).run n with
      | mk pass n₁ =>
      obtain ⟨answer, events, engine⟩ := pass
      change ((e.passEngine s).apply s >>= _).run n = _ at h
      rw [run_bind hpass] at h
      cases answer with
      | ok report =>
        cases h
        exact .applied hgate hdue (applies hpass)
      | error fault =>
        cases h
        exact .failed hgate hdue (applies hpass)

theorem Cycles.overrides_eq {step : Step (Except Fault CycleOutcome)} (h : Cycles e s n step n') :
    step.engine.overrides = e.overrides := by
  cases h with
  | disabled hgate => rfl
  | unchanged hgate hdue => rfl
  | applied hgate hdue hpass => exact hpass.engine_eq.2
  | failed hgate hdue hpass => exact hpass.engine_eq.2

end ForwardedIp.Engine
