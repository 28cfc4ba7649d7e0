import ForwardedIp.Daemon.Environment
import ForwardedIp.Daemon.Start
/-!
# The command

The command reads its configuration from the environment, checks it and runs the daemon. It exits
with 0 after a clean stop, with 1 for a bad configuration and with 2 for a failure while running.
-/
namespace ForwardedIp

/-- How the command ended, and its messages on standard error, each on lines of its own. -/
structure CommandResult where
  exitCode : UInt8
  messages : List String
  deriving DecidableEq

namespace CommandLine

variable {F : Type} [FileSystem F]

/-- The exit code of a run. -/
def exitCodeOf (c : Config) (p : Premises F) (rounds : List (Round (DaemonSite F)))
    (s : Shutdown) : UInt8 :=
  match (Daemon.start c p).1 with
  | .error _ => 2
  | .ok d =>
      match (d.run rounds s).1 with
      | .ok () => 0
      | .error _ => 2

/-- Runs the command with variables on a machine. -/
def run (vars : String → Option String) (p : Premises F) (rounds : List (Round (DaemonSite F)))
    (s : Shutdown) : CommandResult :=
  match DaemonConfig.ofVariables vars with
  | .error f => ⟨1, ["Configuration error: " ++ f.message]⟩
  | .ok c =>
      let notes := c.notes p.files
      match c.validate with
      | .error f => ⟨1, notes ++ ["Configuration validation error: " ++ f.message]⟩
      | .ok () => ⟨exitCodeOf c.core p rounds s, notes⟩

end CommandLine

end ForwardedIp
