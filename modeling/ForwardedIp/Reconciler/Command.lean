import ForwardedIp.Reconciler.Engine
/-!
# Commands to a reconciler

Everything that can be asked of a reconciler, so that a run is a list of commands.
-/
namespace ForwardedIp

/-- A request to a reconciler. -/
inductive Command where
  | cycle (s : Snapshot)
  | reconcile (s : Snapshot)
  | apply (s : Snapshot)
  | isDisabled (s : Snapshot)
  | hasChanged (previous : Option Snapshot) (current : Snapshot)
  | setOverrides (overrides : LocalConfig)

inductive Answer where
  | outcome (result : Except Fault CycleOutcome)
  | report (result : Except Fault Report)
  | flag (b : Bool)
  | done

namespace Step

/-- Changes the answer of a step. -/
def mapAnswer (f : α → β) (s : Step α) : Step β := ⟨f s.answer, s.events, s.engine⟩

end Step

namespace Engine

variable {N : Type} [Site N]

/-- Carries out a command. -/
def perform (e : Engine) : Command → StateM N (Step Answer)
  | .cycle s => return (← e.cycle s).mapAnswer .outcome
  | .reconcile s => return (← e.reconcile s).mapAnswer .outcome
  | .apply s => return (← e.apply s).mapAnswer .report
  | .isDisabled s => return (e.checkDisabled s).mapAnswer .flag
  | .hasChanged previous current => return (e.checkChanged previous current).mapAnswer .flag
  | .setOverrides overrides => return ⟨.done, [], e.setOverrides overrides⟩

end Engine

end ForwardedIp
