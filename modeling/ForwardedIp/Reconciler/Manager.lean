import ForwardedIp.Config.Basic
import ForwardedIp.Reconciler.Command
import ForwardedIp.StartFault
/-!
# A reconciler with its observer

The events that the reconciler offers go to a bounded channel.
-/
namespace ForwardedIp

/-- A reconciler and the channel to its observer. -/
structure Manager where
  engine : Engine
  channel : EventChannel
  deriving DecidableEq

namespace Manager

/-- A channel cannot have room for more events than this. -/
def channelLimit : Nat := Nat.pow 2 61 - 1

def start (c : EngineConfig) (overrides : LocalConfig) : Except StartFault Manager :=
  match c.validate with
  | .error fault => .error (.refused fault)
  | .ok () =>
      if channelLimit < c.eventChannelCapacity.toNat then .error .crash
      else .ok ⟨Engine.fresh overrides, { capacity := c.eventChannelCapacity.toNat }⟩

/-- Takes over the engine of a step and offers its events. -/
def accept (m : Manager) (s : Step α) : α × Manager :=
  (s.answer, ⟨s.engine, m.channel.offerAll s.events⟩)

variable {N : Type} [Site N]

def perform (m : Manager) (c : Command) : StateM N (Answer × Manager) :=
  return m.accept (← m.engine.perform c)

def cycle (m : Manager) (s : Snapshot) : StateM N (Except Fault CycleOutcome × Manager) :=
  return m.accept (← m.engine.cycle s)

def setOverrides (m : Manager) (overrides : LocalConfig) : Manager :=
  { m with engine := m.engine.setOverrides overrides }

def drain (m : Manager) : List Event × Manager :=
  let (events, channel) := m.channel.drain
  (events, { m with channel })

def close (m : Manager) : Manager := { m with channel := m.channel.close }

end Manager

end ForwardedIp
