import ForwardedIp.Daemon.Loop
import ForwardedIp.Proofs.Basics
/-!
# The daemon's loop step by step

A round is a few steps: the local overrides are read again, a request is sent, its reply comes, a
cycle runs, and a delay passes. In between the site may change and the signal to stop may come, at
any moment. The signal is taken where the loop waits for it: as a request is about to be sent, while
one is under way, and in a delay.
-/
namespace ForwardedIp

/-- Where the loop stands. -/
inductive Stage where
  /-- The local overrides are to be read again. -/
  | top
  /-- A request is to be sent. -/
  | ready
  | requesting (since : Nat) (request : HttpRequest)
  /-- A cycle with a snapshot has begun and has not returned. -/
  | cycling (snapshot : Snapshot)
  | resting (secs : Nat)
  /-- The signal was taken, and the ledger is to be flushed. -/
  | stopping
  | stopped (result : Except Fault Unit)

/-- A daemon in its loop, and whether the signal to stop has come. -/
structure DaemonLoop (N : Type) where
  daemon : Daemon N
  stage : Stage
  signalled : Bool

/-- What happens to a loop. -/
inductive Occurrence (N : Type) where
  | outside (change : N → N)
  | elapsed (secs : Nat)
  /-- The signal comes. -/
  | signalled
  /-- The overrides are read again, unless there is no file for them. -/
  | loaded (answer : Option (Except Fault LocalConfig))
  | sent (request : HttpRequest)
  | fetched (reply : HttpReply) (result : Except Fault Snapshot)
  /-- A cycle returns. -/
  | cycled (overrides : LocalConfig) (snapshot : Snapshot) (outcome : Except Fault CycleOutcome)
  | rested
  /-- The loop takes the signal. -/
  | took
  | flushed (result : Except Fault Unit)

/-- The reply that a fetch gets. -/
def Occurrence.reply? {N : Type} : Occurrence N → Option HttpReply
  | .fetched reply _ => some reply
  | _ => none

namespace Daemon
variable {N : Type}

/-- A daemon that is about to enter its loop. -/
def enter (d : Daemon N) : DaemonLoop N := ⟨d, .top, false⟩

/-- New overrides change the manager and nothing else. -/
theorem refresh_cases (d : Daemon N) : ∃ manager : Manager, d.refresh = { d with manager } := by
  unfold refresh
  split
  · exact ⟨d.manager, rfl⟩
  · next load _ =>
    cases hload : load d.site with
    | ok overrides => exact ⟨d.manager.setOverrides overrides, rfl⟩
    | error fault => exact ⟨d.manager, rfl⟩

theorem refresh_time (d : Daemon N) : d.refresh.time = d.time := by
  obtain ⟨manager, hrefresh⟩ := d.refresh_cases
  rw [hrefresh]

theorem refresh_journal (d : Daemon N) : d.refresh.journal = d.journal := by
  obtain ⟨manager, hrefresh⟩ := d.refresh_cases
  rw [hrefresh]

theorem delay_time (d : Daemon N) (secs : Nat) :
    (d.delay secs).time = d.time + min secs longestDelay := rfl

/-- A daemon as the reply to its request comes. -/
def waited (d : Daemon N) (r : Round N) : Daemon N :=
  { d.refresh with site := r.arrival d.refresh.site }.wait r.took

/-- A daemon that has noted its request. -/
def answered (d : Daemon N) (r : Round N) (source : MetadataSource) : Daemon N :=
  { (d.waited r).note (.request d.refresh.time d.refresh.source.request) with source }

theorem waited_time (d : Daemon N) (r : Round N) : (d.waited r).time = d.time + r.took :=
  congrArg (· + r.took) d.refresh_time

variable [Site N] {d : Daemon N} {site : N}

theorem cycle_eq {snapshot : Snapshot} {outcome : Except Fault CycleOutcome} {manager : Manager}
    (h : (d.manager.cycle snapshot).run d.site = ((outcome, manager), site)) :
    d.cycle snapshot = (outcome, { d with site, manager := manager.drain.2 }.note
      (.cycle d.time d.manager.engine.overrides snapshot outcome)) := by
  rw [cycle, h]

theorem round_missed {r : Round N} {fault : Fault} {source : MetadataSource}
    (hreply : d.refresh.source.receive r.reply = (.error fault, source)) :
    d.round r = (d.answered r source).delay (d.waited r).retryDelaySecs := by
  unfold round
  simp only [note, wait, hreply]
  rfl

theorem round_delivered {r : Round N} {snapshot : Snapshot} {source : MetadataSource}
    {outcome : Except Fault CycleOutcome} {manager : Manager}
    (hreply : d.refresh.source.receive r.reply = (.ok snapshot, source))
    (hcycle : ((d.answered r source).manager.cycle snapshot).run (d.answered r source).site =
      ((outcome, manager), site)) :
    d.round r = ({ d.answered r source with site, manager := manager.drain.2 }.note
      (.cycle (d.answered r source).time (d.answered r source).manager.engine.overrides snapshot
        outcome)).delay ((d.answered r source).pause outcome) := by
  have hdaemon := cycle_eq hcycle
  unfold round
  simp only [note, wait, hreply]
  exact congrArg (fun ended => ended.2.delay (ended.2.pause ended.1)) hdaemon

theorem stop_eq {answer : Except Fault Unit}
    (h : (Site.flush : StateM N (Except Fault Unit)).run d.site = (answer, site)) :
    d.stop .duringDelay =
      (answer.mapError fun f => .other ("Failed to flush ledger: " ++ f.message),
        { d with site }.note (.flush answer)) := by
  obtain ⟨rfl, rfl⟩ := Prod.mk.inj h
  rfl

end Daemon

namespace DaemonLoop
variable {N : Type} [Site N]

/-- One thing happens to a loop. A cycle is not left before it has returned, and a delay of no
seconds is not waited for. -/
inductive Moves : DaemonLoop N → Occurrence N → DaemonLoop N → Prop where
  | outside (d : Daemon N) (stage : Stage) (signalled : Bool) (change : N → N) :
      Moves ⟨d, stage, signalled⟩ (.outside change)
        ⟨{ d with site := change d.site }, stage, signalled⟩
  | elapsed (d : Daemon N) (stage : Stage) (signalled : Bool) (secs : Nat) :
      Moves ⟨d, stage, signalled⟩ (.elapsed secs) ⟨d.wait secs, stage, signalled⟩
  | signalled (d : Daemon N) (stage : Stage) (signalled : Bool) :
      Moves ⟨d, stage, signalled⟩ .signalled ⟨d, stage, true⟩
  | loaded (d : Daemon N) (signalled : Bool) :
      Moves ⟨d, .top, signalled⟩ (.loaded (d.load.map (· d.site))) ⟨d.refresh, .ready, signalled⟩
  | sent (d : Daemon N) (signalled : Bool) :
      Moves ⟨d, .ready, signalled⟩ (.sent d.source.request)
        ⟨d, .requesting d.time d.source.request, signalled⟩
  | delivered (d : Daemon N) (signalled : Bool) (since : Nat) (request : HttpRequest)
      {reply : HttpReply} {snapshot : Snapshot} {source : MetadataSource}
      (hreply : d.source.receive reply = (.ok snapshot, source)) :
      Moves ⟨d, .requesting since request, signalled⟩ (.fetched reply (.ok snapshot))
        ⟨{ d.note (.request since request) with source }, .cycling snapshot, signalled⟩
  | missed (d : Daemon N) (signalled : Bool) (since : Nat) (request : HttpRequest)
      {reply : HttpReply} {fault : Fault} {source : MetadataSource}
      (hreply : d.source.receive reply = (.error fault, source)) :
      Moves ⟨d, .requesting since request, signalled⟩ (.fetched reply (.error fault))
        ⟨{ d.note (.request since request) with source }, .resting d.retryDelaySecs, signalled⟩
  | cycled (d : Daemon N) (signalled : Bool) {snapshot : Snapshot}
      {outcome : Except Fault CycleOutcome} {manager : Manager} {site : N}
      (hcycle : (d.manager.cycle snapshot).run d.site = ((outcome, manager), site)) :
      Moves ⟨d, .cycling snapshot, signalled⟩
        (.cycled d.manager.engine.overrides snapshot outcome)
        ⟨{ d with site, manager := manager.drain.2 }.note
            (.cycle d.time d.manager.engine.overrides snapshot outcome),
          .resting (d.pause outcome), signalled⟩
  | rested (d : Daemon N) (signalled : Bool) (secs : Nat) :
      Moves ⟨d, .resting secs, signalled⟩ .rested ⟨d.delay secs, .top, signalled⟩
  | tookReady (d : Daemon N) : Moves ⟨d, .ready, true⟩ .took ⟨d, .stopping, true⟩
  | tookRequesting (d : Daemon N) (since : Nat) (request : HttpRequest) :
      Moves ⟨d, .requesting since request, true⟩ .took
        ⟨d.note (.abandoned since request), .stopping, true⟩
  | tookResting (d : Daemon N) {secs : Nat} (hsecs : secs ≠ 0) :
      Moves ⟨d, .resting secs, true⟩ .took ⟨d, .stopping, true⟩
  | flushed (d : Daemon N) (signalled : Bool) {answer : Except Fault Unit} {site : N}
      (hflush : (Site.flush : StateM N (Except Fault Unit)).run d.site = (answer, site)) :
      Moves ⟨d, .stopping, signalled⟩ (.flushed answer)
        ⟨{ d with site }.note (.flush answer),
          .stopped (answer.mapError fun f => .other ("Failed to flush ledger: " ++ f.message)),
          signalled⟩

/-- What happened to a loop, in order, and where that led. -/
inductive Executes (start : DaemonLoop N) : List (Occurrence N) → DaemonLoop N → Prop where
  | nil : Executes start [] start
  | snoc {past : List (Occurrence N)} {l l' : DaemonLoop N} {x : Occurrence N}
      (earlier : Executes start past l) (last : Moves l x l') : Executes start (past ++ [x]) l'

variable {start l : DaemonLoop N} {past later : List (Occurrence N)} {x : Occurrence N}

/-- What happened, happened to the loop that everything before it had led to. -/
theorem Executes.moved (h : Executes start (past ++ x :: later) l) :
    ∃ l₁ l₂, Executes start past l₁ ∧ Moves l₁ x l₂ := by
  generalize htrace : past ++ x :: later = trace at h
  induction h generalizing later with
  | nil => simp at htrace
  | snoc earlier last ih =>
    rcases last_or_earlier htrace with ⟨rfl, rfl, rfl⟩ | ⟨rest, rfl, rfl⟩
    · exact ⟨_, _, earlier, last⟩
    · exact ih rfl

end DaemonLoop

namespace Daemon
variable {N : Type} [Site N] (d : Daemon N)

/-- A delay follows a round, so the signal can come in it. -/
def Rests (r : Round N) : Prop := d.time + r.took < (d.round r).time

instance (r : Round N) : Decidable (d.Rests r) := inferInstanceAs (Decidable (_ < _))

variable {d} {d' : Daemon N} {r : Round N} {secs : Nat}

theorem Rests.secs_ne_zero (h : d.Rests r) (hround : d.round r = d'.delay secs)
    (htime : d'.time = d.time + r.took) : secs ≠ 0 := by
  rintro rfl
  rw [Rests, hround, delay_time, htime, Nat.zero_min, Nat.add_zero] at h
  exact Nat.lt_irrefl _ h

/-- A signal that comes in the delay after the last round. -/
theorem run_concat_delayed {earlier : List (Round N)}
    (hround : (earlier.foldl round d).round r = d'.delay secs) :
    d.run (earlier ++ [r]) .duringDelay = (d'.delay secs).stop .duringDelay := by
  rw [run, List.foldl_append, List.foldl_cons, List.foldl_nil, hround]

variable (d)

/-- The rounds end where the signal is said to come. -/
def Lands (rounds : List (Round N)) : Shutdown → Prop
  | .duringRequest => True
  | .duringDelay => ∃ earlier r, rounds = earlier ++ [r] ∧ (earlier.foldl round d).Rests r

end Daemon
end ForwardedIp
