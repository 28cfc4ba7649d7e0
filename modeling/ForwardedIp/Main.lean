import ForwardedIp.Daemon.CommandLine
import ForwardedIp.Files.FileTree
/-!
# The program

The program rehearses a start of the daemon on an empty machine in memory: it takes the variables
of its environment, says what is wrong with them, and stops at the first request.
-/
namespace ForwardedIp

/-- The variables that the command looks at. -/
def variableNames : List String :=
  ["FWDIP_METADATA_URL", "FWDIP_METADATA_TIMEOUT_SECS", "FWDIP_WAIT_FOR_CHANGE",
    "FWDIP_LEDGER_TYPE", "FWDIP_LEDGER_PATH", "FWDIP_LOCAL_CONFIG", "FWDIP_POLL_INTERVAL_SECS",
    "FWDIP_RETRY_DELAY_SECS", "FWDIP_LOG_LEVEL"]

end ForwardedIp

open ForwardedIp in
/-- Runs the command with the variables of the environment. -/
def main : IO UInt32 := do
  let values ← variableNames.mapM fun name => return (name, ← IO.getEnv name)
  let premises : Premises FileTree := { kernel := {}, files := {}, now := ⟨0, 0, 0⟩ }
  let result := CommandLine.run (fun name => (values.lookup name).join) premises [] .duringRequest
  for line in result.messages do
    IO.eprintln line
  return result.exitCode.toUInt32
