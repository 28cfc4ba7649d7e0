import ForwardedIp.Settings
/-!
# Addresses of failover clusters

A failover cluster moves its addresses between machines, so the manager must leave them alone. A
list of addresses is more precise than the flag and counts first: it excludes exactly the listed
texts. The flag alone excludes every forwarded address.
-/
namespace ForwardedIp

/-- What is excluded from a declaration. -/
inductive Exclusion where
  | listed
  | all
  | nothing
  deriving DecidableEq

namespace Exclusion

/-- What the settings exclude. -/
def ofSettings (s : Settings) : Exclusion :=
  if !s.failoverAddresses.isEmpty then listed
  else if s.failoverEnabled then all
  else nothing

/-- The forwarded addresses that stay. -/
def keep (s : Settings) (ips : List String) : List String :=
  match ofSettings s with
  | listed => ips.filter fun ip => !s.failoverAddresses.contains ip
  | all => []
  | nothing => ips

/-- A declaration without what is excluded. No interface is left out. -/
def apply (s : Settings) (interfaces : List DeclaredInterface) : List DeclaredInterface :=
  interfaces.map fun i => { i with forwardedIps := keep s i.forwardedIps }

@[simp] theorem length_apply (s : Settings) (interfaces : List DeclaredInterface) :
    (apply s interfaces).length = interfaces.length := by simp [apply]

end Exclusion

end ForwardedIp
