import ForwardedIp.Metadata.Source
import ForwardedIp.Reconciler.Manager
/-!
# The daemon's loop

In virtual time the daemon repeats rounds: it reads the local overrides again, asks the metadata
server, and runs a cycle with the snapshot that comes back. A round that worked is followed by the
next one after the poll interval, or at once if the server itself holds requests; a failed request
and a failed cycle are followed by the retry delay. A signal ends the loop while a request or a
delay is under way, never inside a cycle, and then the ledger is flushed once.
-/
namespace ForwardedIp

/-- What the surroundings do while a request is under way: changes at the site, the reply, and
the seconds that it takes. -/
structure Round (N : Type) where
  arrival : N → N := id
  reply : HttpReply
  took : Nat := 0

/-- When the signal to stop comes, after the last round. -/
inductive Shutdown where
  | duringRequest
  | duringDelay
  deriving DecidableEq

/-- What the daemon did, in order. Requests and cycles carry the second at which they started. -/
inductive DaemonEntry where
  | request (time : Nat) (request : HttpRequest)
  /-- A request that was sent and not waited for. -/
  | abandoned (time : Nat) (request : HttpRequest)
  | cycle (time : Nat) (overrides : LocalConfig) (snapshot : Snapshot)
      (outcome : Except Fault CycleOutcome)
  | flush (result : Except Fault Unit)

/-- A running daemon. -/
structure Daemon (N : Type) where
  site : N
  source : MetadataSource
  manager : Manager
  pollIntervalSecs : Nat
  retryDelaySecs : Nat
  /-- The local overrides as they are on the machine; nothing if there is no file for them. -/
  load : Option (N → Except Fault LocalConfig)
  time : Nat := 0
  journal : List DaemonEntry := []

namespace Daemon

variable {N : Type} [Site N]

def note (d : Daemon N) (e : DaemonEntry) : Daemon N := { d with journal := d.journal ++ [e] }

def wait (d : Daemon N) (secs : Nat) : Daemon N := { d with time := d.time + secs }

/-- The longest delay in seconds: thirty years. -/
def longestDelay : Nat := 30 * 365 * 86400

/-- Lets a delay pass, the longest one if it is longer than that. -/
def delay (d : Daemon N) (secs : Nat) : Daemon N := d.wait (min secs longestDelay)

/-- Reads the local overrides again. If that fails the ones read before stay. -/
def refresh (d : Daemon N) : Daemon N :=
  match d.load with
  | none => d
  | some load =>
      match load d.site with
      | .ok overrides => { d with manager := d.manager.setOverrides overrides }
      | .error _ => d

/-- Runs a cycle. The observer receives its events at once. -/
def cycle (d : Daemon N) (s : Snapshot) : Except Fault CycleOutcome × Daemon N :=
  let overrides := d.manager.engine.overrides
  let ((outcome, manager), site) := (d.manager.cycle s).run d.site
  (outcome,
    { d with site, manager := manager.drain.2 }.note (.cycle d.time overrides s outcome))

/-- The pause after a cycle. -/
def pause (d : Daemon N) : Except Fault CycleOutcome → Nat
  | .ok _ => if d.source.waits then 0 else d.pollIntervalSecs
  | .error _ => d.retryDelaySecs

def round (d : Daemon N) (r : Round N) : Daemon N :=
  let d := d.refresh
  let d := d.note (.request d.time d.source.request)
  let d := { d with site := r.arrival d.site }.wait r.took
  let (fetched, source) := d.source.receive r.reply
  let d := { d with source }
  match fetched with
  | .ok snapshot =>
      let (outcome, d) := d.cycle snapshot
      d.delay (d.pause outcome)
  | .error _ => d.delay d.retryDelaySecs

/-- Ends the loop and flushes the ledger. -/
def stop (d : Daemon N) (s : Shutdown) : Except Fault Unit × Daemon N :=
  let d := match s with
    | .duringRequest =>
        let d := d.refresh
        d.note (.abandoned d.time d.source.request)
    | .duringDelay => d
  let (result, site) := (Site.flush : StateM N (Except Fault Unit)) d.site
  (result.mapError fun f => .other ("Failed to flush ledger: " ++ f.message),
    { d with site }.note (.flush result))

/-- Runs the loop through its rounds to its end. -/
def run (d : Daemon N) (rounds : List (Round N)) (s : Shutdown) : Except Fault Unit × Daemon N :=
  (rounds.foldl round d).stop s

end Daemon

end ForwardedIp
