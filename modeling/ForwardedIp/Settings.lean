import ForwardedIp.AddressList
import ForwardedIp.Flag
import ForwardedIp.LocalConfig
import ForwardedIp.Snapshot
/-!
# Effective settings

Each setting has three sources: the local overrides, the attributes of the instance and those of
the project, in this order. The first source with a usable value decides. Without one a flag is
false and a list empty, but the flag that disables the manager keeps its last value, so that an
outage of the metadata server never changes it.
-/
namespace ForwardedIp

/-- The settings in force. -/
structure Settings where
  failoverEnabled : Bool := false
  failoverAddresses : List String := []
  disabled : Bool := false
  deriving DecidableEq

namespace Settings

/-- The section of overrides about failover clusters. -/
def failoverSection : String := "wsfc"

/-- The section of overrides about the manager itself. -/
def managerSection : String := "addressManager"

/-- A text, unless it is empty. -/
def nonempty? (text : String) : Option String := if text.isEmpty then none else some text

/-- The addresses that belong to failover clusters. -/
def resolveAddresses (c : LocalConfig) (s : Snapshot) : List String :=
  let raw := ((c.get? failoverSection "addresses").bind nonempty?).or
    ((s.instanceAttributes.failoverAddresses.bind nonempty?).or
      (s.projectAttributes.failoverAddresses.bind nonempty?))
  (raw.map AddressList.parse).getD []

/-- Whether the machine belongs to a failover cluster. -/
def resolveEnabled (c : LocalConfig) (s : Snapshot) : Bool :=
  (((c.get? failoverSection "enable").bind Flag.lenient?).or
    ((s.instanceAttributes.enableFailover.bind Flag.strict?).or
      (s.projectAttributes.enableFailover.bind Flag.strict?))).getD false

/-- Whether the manager is disabled. -/
def resolveDisabled (c : LocalConfig) (s : Snapshot) (remembered : Bool) : Bool :=
  (((c.get? managerSection "disable").bind Flag.strict?).or
    ((s.instanceAttributes.disableManager.bind Flag.strict?).or
      (s.projectAttributes.disableManager.bind Flag.strict?))).getD remembered

/-- The settings in force, given the last value of the flag that disables the manager. -/
def resolve (c : LocalConfig) (s : Snapshot) (remembered : Bool) : Settings where
  failoverEnabled := resolveEnabled c s
  failoverAddresses := resolveAddresses c s
  disabled := resolveDisabled c s remembered

end Settings

end ForwardedIp
