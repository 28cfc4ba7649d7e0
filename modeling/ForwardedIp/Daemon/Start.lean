import ForwardedIp.Daemon.Loop
import ForwardedIp.Host.Netlink
import ForwardedIp.Ledger.Open
/-!
# Starting the daemon

The parts are built in order: the host, the ledger, the source of snapshots, the local overrides
and the reconciler. Overrides that cannot be read at the start count as none.
-/
namespace ForwardedIp

/-- A machine before the daemon runs on it. -/
structure Premises (F : Type) where
  kernel : Kernel
  files : F
  now : Timestamp

/-- The machine that the daemon runs on. -/
abbrev DaemonSite (F : Type) := Machine LinuxHost (LedgerSite F)

namespace Daemon

variable {F : Type} [FileSystem F]

/-- Says in which step of the start a fault came up. -/
def during (step : String) : Except Fault α → Except StartFault α
  | .ok a => .ok a
  | .error f => .error (.refused (.other (step ++ ": " ++ f.message)))

/-- Says in which step of the start a part could not be built. -/
def duringStart (step : String) : Except StartFault α → Except StartFault α
  | .ok a => .ok a
  | .error (.refused f) => .error (.refused (.other (step ++ ": " ++ f.message)))
  | .error .crash => .error .crash

/-- The local overrides at a path, as they are on a machine. -/
def loadOverrides (path : String) (m : DaemonSite F) : Except Fault LocalConfig :=
  LocalConfig.load m.ledger.files path

/-- Builds a daemon. The files may have changed even if that fails. -/
def start (c : Config) (p : Premises F) : Except StartFault (Daemon (DaemonSite F)) × F :=
  match LinuxHost.connect p.kernel true with
  | .error f => (during "Failed to create network backend" (.error f), p.files)
  | .ok host =>
      let (opened, files) := c.ledger.openLedger p.files
      let built := do
        let ledger ← during "Failed to open ledger" opened
        let source ← duringStart "Failed to create metadata source"
          (MetadataSource.start c.metadata none)
        let site : DaemonSite F := ⟨host, ⟨files, ledger, p.now⟩⟩
        let load := c.localConfigPath.map loadOverrides
        let overrides := match load.map (· site) with
          | some (.ok overrides) => overrides
          | _ => .empty
        let manager ← Manager.start c.engine overrides
        return {
          site, source, manager, load
          pollIntervalSecs := c.engine.pollIntervalSecs.toNat
          retryDelaySecs := c.engine.retryDelaySecs.toNat }
      (built, files)

end Daemon

end ForwardedIp
