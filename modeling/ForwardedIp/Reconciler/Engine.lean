import ForwardedIp.Reconciler.Exclusion
import ForwardedIp.Reconciler.Notices
import ForwardedIp.Reconciler.Report
import ForwardedIp.Reconciler.TransitionMemo
/-!
# The reconciler

A cycle asks three questions: is the manager disabled, did the declaration or the failover
settings change, and does something that failed have to be tried again. If need be it makes a
pass over the declared interfaces. Only a host that cannot list its interfaces makes a pass fail;
every other failure is counted, told, and tried again in the next cycle.
-/
namespace ForwardedIp

/-- What a reconciler remembers. -/
structure Engine where
  overrides : LocalConfig := {}
  memo : TransitionMemo := {}
  notices : Notices := {}
  /-- The snapshot of the last cycle. -/
  previous : Option Snapshot := none
  retryPending : Bool := false
  deriving DecidableEq

/-- What a step answers, the events that it offers, and what is remembered after it. -/
structure Step (α : Type) where
  answer : α
  events : List Event
  engine : Engine

/-- What came of a cycle that did not fail. -/
inductive CycleOutcome where
  | disabled
  | unchanged
  | applied (report : Report)
  deriving DecidableEq

namespace Engine

/-- The part of the manager that status events are about. -/
def statusComponent : String := "address"

/-- A reconciler that has seen nothing. -/
def fresh (overrides : LocalConfig) : Engine := { overrides }

/-- The settings in force under a snapshot. -/
def settings (e : Engine) (s : Snapshot) : Settings :=
  Settings.resolve e.overrides s e.memo.disabled

/-- The declaration of a snapshot without what is excluded. -/
def declaration (e : Engine) (s : Snapshot) : List DeclaredInterface :=
  Exclusion.apply (e.settings s) s.interfaces

/-- Whether the manager is disabled. A change of the flag is told. -/
def checkDisabled (e : Engine) (s : Snapshot) : Step Bool :=
  let disabled := (e.settings s).disabled
  let (changed, memo) := e.memo.recordDisabled disabled
  ⟨disabled, if changed then [.managerStatus statusComponent disabled] else [], { e with memo }⟩

/-- Whether the declaration or the failover settings changed. -/
def checkChanged (e : Engine) (previous : Option Snapshot) (current : Snapshot) : Step Bool :=
  let (changed, memo) := e.memo.sampleChanges previous current (e.settings current)
  ⟨changed, [], { e with memo }⟩

def setOverrides (e : Engine) (overrides : LocalConfig) : Engine := { e with overrides }

/-- Draws the conclusions of a pass. -/
def conclude (e : Engine) (visits : List Visit) : Step Report :=
  let report := Report.ofVisits visits
  let (told, notices) := Notices.tellAll Notices.tell e.notices visits
  ⟨report, told ++ [.cycleCompleted report.reconciled report.skipped],
    { e with notices, retryPending := report.hasFailures }⟩

variable {N : Type} [Site N]

/-- Makes a pass over the declared interfaces. -/
def apply (e : Engine) (s : Snapshot) : StateM N (Step (Except Fault Report)) := do
  match ← Site.interfaces with
  | .error fault => return ⟨.error fault, [], e⟩
  | .ok live =>
      let visits ← (e.declaration s).mapM (Visit.run live)
      let step := e.conclude visits
      return ⟨.ok step.answer, step.events, step.engine⟩

/-- Makes a pass unless the manager is disabled. -/
def reconcile (e : Engine) (s : Snapshot) : StateM N (Step (Except Fault CycleOutcome)) := do
  let gate := e.checkDisabled s
  if gate.answer then return ⟨.ok .disabled, gate.events, gate.engine⟩
  else
    let pass ← gate.engine.apply s
    return ⟨pass.answer.map .applied, gate.events ++ pass.events, pass.engine⟩

/-- Runs a cycle. The snapshot is kept for the next one whatever happens. -/
def cycle (e : Engine) (s : Snapshot) : StateM N (Step (Except Fault CycleOutcome)) := do
  let gate := e.checkDisabled s
  if gate.answer then
    return ⟨.ok .disabled, gate.events, { gate.engine with previous := some s }⟩
  else
    let change := gate.engine.checkChanged gate.engine.previous s
    if change.answer || change.engine.retryPending then
      let pass ← { change.engine with previous := none }.apply s
      match pass.answer with
      | .ok report =>
          return ⟨.ok (.applied report), gate.events ++ pass.events,
            { pass.engine with previous := some s }⟩
      | .error fault =>
          return ⟨.error fault, gate.events ++ pass.events,
            { pass.engine with previous := some s, retryPending := true }⟩
    else
      return ⟨.ok .unchanged, gate.events, { change.engine with previous := some s }⟩

end Engine

end ForwardedIp
