import ForwardedIp.Fault
/-!
# Failing to start

A part of the manager that is built from a configuration is refused with a fault, or the process
stops because a limit of the platform is exceeded that no check of the configuration knows.
-/
namespace ForwardedIp

/-- Why a part could not be built. -/
inductive StartFault where
  | refused (fault : Fault)
  | crash
  deriving DecidableEq

end ForwardedIp
