import ForwardedIp.Settings
/-!
# What was remembered from the cycle before

Three settings are remembered. Looking for changes overwrites two of them with their current
values, so it must happen once a cycle, or a change is lost.
-/
namespace ForwardedIp

/-- The settings of the last cycle. -/
structure TransitionMemo where
  failoverAddresses : List String := []
  failoverEnabled : Bool := false
  disabled : Bool := false
  deriving DecidableEq

namespace TransitionMemo

/-- The interfaces that a snapshot declares; no snapshot declares none. -/
def declared (s : Option Snapshot) : List DeclaredInterface := (s.map Snapshot.interfaces).getD []

/-- Whether the declaration or the failover settings differ from those of the last cycle. The
order of interfaces and of addresses counts. -/
def differs (m : TransitionMemo) (previous : Option Snapshot) (current : Snapshot)
    (s : Settings) : Bool :=
  declared previous != current.interfaces || s.failoverEnabled != m.failoverEnabled ||
    s.failoverAddresses != m.failoverAddresses

/-- Remembers the failover settings. -/
def remember (m : TransitionMemo) (s : Settings) : TransitionMemo :=
  { m with failoverAddresses := s.failoverAddresses, failoverEnabled := s.failoverEnabled }

/-- Looks for changes and remembers the failover settings. -/
def sampleChanges (m : TransitionMemo) (previous : Option Snapshot) (current : Snapshot)
    (s : Settings) : Bool × TransitionMemo :=
  (m.differs previous current s, m.remember s)

/-- Remembers the flag that disables the manager, and says whether it is another one now. -/
def recordDisabled (m : TransitionMemo) (disabled : Bool) : Bool × TransitionMemo :=
  (disabled != m.disabled, { m with disabled })

end TransitionMemo

end ForwardedIp
