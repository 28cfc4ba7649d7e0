import Mathlib.Data.Real.Basic
import ForwardedIp.Proofs.LoopSteps
/-!
# The daemon's loop in time

A request and a cycle take as long as they take. Reading the overrides takes no time, and a delay
passes to the second unless the signal ends it. The rounds of a daemon are executions of its loop in
time, in which the site changes during requests only.
-/
namespace ForwardedIp

namespace Occurrence
variable {N : Type}

/-- Whether a loop stays where it is. -/
def stays : Occurrence N → Bool
  | .outside _ | .elapsed _ | .signalled => true
  | _ => false

/-- Whether an attempt ends here and has failed. -/
def failed? : Occurrence N → Option Bool
  | .fetched _ (.error _) => some true
  | .cycled _ _ (.error _) => some true
  | .cycled _ _ (.ok _) => some false
  | _ => none

end Occurrence

/-- The seconds within which a loop leaves a stage. -/
def Stage.limit? : Stage → Option Nat
  | .top | .ready => some 0
  | .resting secs => some (min secs Daemon.longestDelay)
  | _ => none

/-- A loop in time. -/
structure TimedLoop (N : Type) where
  loop : DaemonLoop N
  /-- When it came to its stage. -/
  since : ℝ
  now : ℝ

/-- A request, with the cycle that follows if it delivers a snapshot. -/
structure DaemonAttempt where
  start : ℝ
  /-- When it ended, and whether it failed. -/
  ended : Option (ℝ × Bool) := none

namespace DaemonAttempt
variable {N : Type}

def note (as : List DaemonAttempt) (t : ℝ) (x : Occurrence N) : List DaemonAttempt :=
  match x with
  | .sent _ => ⟨t, none⟩ :: as
  | x =>
      match x.failed?, as with
      | some failed, a :: as => { a with ended := some (t, failed) } :: as
      | _, as => as

def noteAll (as : List DaemonAttempt) (trace : List (ℝ × Occurrence N)) : List DaemonAttempt :=
  trace.foldl (fun as moment => note as moment.1 moment.2) as

/-- The attempts of a timed trace, the latest first. -/
def ofTrace (trace : List (ℝ × Occurrence N)) : List DaemonAttempt := noteAll [] trace

theorem noteAll_append (as : List DaemonAttempt) (past later : List (ℝ × Occurrence N)) :
    noteAll as (past ++ later) = noteAll (noteAll as past) later := List.foldl_append

theorem ofTrace_snoc (past : List (ℝ × Occurrence N)) (t : ℝ) (x : Occurrence N) :
    ofTrace (past ++ [(t, x)]) = note (ofTrace past) t x := noteAll_append [] past [(t, x)]

end DaemonAttempt

namespace TimedLoop
variable {N : Type} [Site N]

/-- Something happens to a loop at a moment. The stages that take no time are left at once, and a
delay is over when it has passed. -/
structure Moves (l : TimedLoop N) (t : ℝ) (x : Occurrence N) (l' : TimedLoop N) : Prop where
  move : l.loop.Moves x l'.loop
  later : l.now ≤ t
  punctual : ∀ secs, l.loop.stage.limit? = some secs → t ≤ l.since + secs
  rested : x = .rested → ∀ secs, l.loop.stage.limit? = some secs → l.since + secs ≤ t
  since_eq : l'.since = if x.stays then l.since else t
  now_eq : l'.now = t

/-- What happened to a loop, with the moments, in order, and where that led. -/
inductive Executes (start : TimedLoop N) : List (ℝ × Occurrence N) → TimedLoop N → Prop where
  | nil : Executes start [] start
  | snoc {past : List (ℝ × Occurrence N)} {l l' : TimedLoop N} {t : ℝ} {x : Occurrence N}
      (earlier : Executes start past l) (last : Moves l t x l') :
      Executes start (past ++ [(t, x)]) l'

variable {start l l' l'' : TimedLoop N} {past later : List (ℝ × Occurrence N)} {t : ℝ}
  {x : Occurrence N}

theorem Executes.single (h : Moves l t x l') : Executes l [(t, x)] l' := .snoc .nil h

theorem Executes.append (h : Executes l past l') (h' : Executes l' later l'') :
    Executes l (past ++ later) l'' := by
  induction h' with
  | nil => rwa [List.append_nil]
  | snoc earlier last ih =>
    rw [← List.append_assoc]
    exact .snoc ih last

/-- What happened in time, happened. -/
theorem Executes.forget (h : Executes l past l') : l.loop.Executes (past.map (·.2)) l'.loop := by
  induction h with
  | nil => exact .nil
  | snoc earlier last ih =>
    rw [List.map_append]
    exact .snoc ih last.move

/-- What leads a loop on at once. -/
theorem Moves.at_once {loop loop' : DaemonLoop N} (h : loop.Moves x loop') (t : ℝ)
    (hx : x.stays = false) (hrests : ∀ secs, loop.stage ≠ .resting secs) :
    Moves ⟨loop, t, t⟩ t x ⟨loop', t, t⟩ where
  move := h
  later := le_rfl
  punctual secs _ := by simp
  rested hx := by
    subst hx
    cases h
    exact absurd rfl (hrests _)
  since_eq := by rw [hx]; rfl
  now_eq := rfl

/-- A loop that rests goes on when the delay has passed. -/
theorem Moves.resting (d : Daemon N) (signalled : Bool) (secs : Nat) {since now : ℝ}
    (hnow : now ≤ since + (min secs Daemon.longestDelay : ℕ)) :
    Moves ⟨⟨d, .resting secs, signalled⟩, since, now⟩
      (since + (min secs Daemon.longestDelay : ℕ)) .rested
      ⟨⟨d.delay secs, .top, signalled⟩, since + (min secs Daemon.longestDelay : ℕ),
        since + (min secs Daemon.longestDelay : ℕ)⟩ where
  move := .rested d signalled secs
  later := hnow
  punctual secs' h := by
    obtain rfl := Option.some.inj h
    exact le_rfl
  rested _ secs' h := by
    obtain rfl := Option.some.inj h
    exact le_rfl
  since_eq := rfl
  now_eq := rfl

end TimedLoop

/-- The second at which a request was sent. -/
def DaemonEntry.requestTime? : DaemonEntry → Option Nat
  | .request time _ | .abandoned time _ => some time
  | _ => none

namespace TimedLoop
variable {N : Type}

/-- What a daemon's journal tells in addition are the starts of the attempts of a trace. -/
def Tells (d d' : Daemon N) (trace : List (ℝ × Occurrence N)) : Prop :=
  ∃ times : List Nat,
    d'.journal.filterMap DaemonEntry.requestTime? =
      d.journal.filterMap DaemonEntry.requestTime? ++ times ∧
    ∀ as, (DaemonAttempt.noteAll as trace).map (·.start) =
      (times.map fun time : Nat => (time : ℝ)).reverse ++ as.map (·.start)

theorem Tells.append {d d' d'' : Daemon N} {past later : List (ℝ × Occurrence N)}
    (h : Tells d d' past) (h' : Tells d' d'' later) : Tells d d'' (past ++ later) := by
  obtain ⟨times, hjournal, hstarts⟩ := h
  obtain ⟨times', hjournal', hstarts'⟩ := h'
  refine ⟨times ++ times', by rw [hjournal', hjournal, List.append_assoc], fun as => ?_⟩
  rw [DaemonAttempt.noteAll_append, hstarts', hstarts, List.map_append, List.reverse_append,
    List.append_assoc]

/-- The requests among the entries that a journal has in addition. -/
theorem Tells.of_journal {d d' : Daemon N} {trace : List (ℝ × Occurrence N)}
    (entries : List DaemonEntry) (hjournal : d'.journal = d.journal ++ entries)
    (hstarts : ∀ as, (DaemonAttempt.noteAll as trace).map (·.start) =
      ((entries.filterMap DaemonEntry.requestTime?).map fun time : Nat => (time : ℝ)).reverse ++
        as.map (·.start)) : Tells d d' trace :=
  ⟨_, by rw [hjournal, List.filterMap_append], hstarts⟩

/-- The replies that came, in order. -/
def replies (trace : List (ℝ × Occurrence N)) : List HttpReply :=
  (trace.map (·.2)).filterMap Occurrence.reply?

theorem replies_append (past later : List (ℝ × Occurrence N)) :
    replies (past ++ later) = replies past ++ replies later := by
  rw [replies, List.map_append, List.filterMap_append, replies, replies]

variable [Site N]

/-- A loop that waits for the server or for a cycle may wait as long as it takes. -/
theorem Moves.waiting {l l' : DaemonLoop N} {x : Occurrence N} (h : l.Moves x l')
    (hlimit : l.stage.limit? = none) {since now t : ℝ} (ht : now ≤ t) :
    Moves ⟨l, since, now⟩ t x ⟨l', if x.stays then since else t, t⟩ where
  move := h
  later := ht
  punctual secs hsecs := by
    rw [hlimit] at hsecs
    cases hsecs
  rested _ secs hsecs := by
    rw [hlimit] at hsecs
    cases hsecs
  since_eq := rfl
  now_eq := rfl

/-- Until a delay has passed anything but its end may happen in it. -/
theorem Moves.in_delay {d : Daemon N} {secs : Nat} {signalled : Bool} {l' : DaemonLoop N}
    {x : Occurrence N} (h : DaemonLoop.Moves ⟨d, .resting secs, signalled⟩ x l') (hx : x ≠ .rested)
    {since now t : ℝ} (ht : now ≤ t) (hdue : t ≤ since + (min secs Daemon.longestDelay : ℕ)) :
    Moves ⟨⟨d, .resting secs, signalled⟩, since, now⟩ t x
      ⟨l', if x.stays then since else t, t⟩ where
  move := h
  later := ht
  punctual secs' hsecs := by
    obtain rfl := Option.some.inj hsecs
    exact hdue
  rested hrested := absurd hrested hx
  since_eq := rfl
  now_eq := rfl

section Rounds
variable (d : Daemon N) (r : Round N) (signalled : Bool)

/-- The overrides are read again and a request is sent, all at once. -/
theorem asks (t : ℝ) : ∃ trace,
    Executes ⟨⟨d, .top, signalled⟩, t, t⟩ trace
      ⟨⟨d.refresh, .requesting d.refresh.time d.refresh.source.request, signalled⟩, t, t⟩ ∧
    (∀ as, DaemonAttempt.noteAll as trace = ⟨t, none⟩ :: as) ∧ replies trace = [] := by
  have hloaded := Moves.at_once (.loaded d signalled) t rfl (fun _ => nofun)
  have hsent := Moves.at_once (.sent d.refresh signalled) t rfl (fun _ => nofun)
  exact ⟨_, .snoc (.single hloaded) hsent, fun as => rfl, rfl⟩

/-- A request takes its time, and the site changes. -/
theorem awaits : ∃ trace,
    Executes ⟨⟨d, .top, signalled⟩, d.time, d.time⟩ trace
      ⟨⟨d.waited r, .requesting d.refresh.time d.refresh.source.request, signalled⟩, d.time,
        (d.waited r).time⟩ ∧
    (∀ as, DaemonAttempt.noteAll as trace = ⟨d.time, none⟩ :: as) ∧ replies trace = [] := by
  obtain ⟨asked, hasks, hnotes, hquiet⟩ := asks d signalled d.time
  have hlater : (d.time : ℝ) ≤ (d.waited r).time := by
    rw [d.waited_time]
    exact_mod_cast Nat.le_add_right d.time r.took
  refine ⟨_, .snoc (.snoc hasks (.waiting (.outside _ _ _ r.arrival) rfl le_rfl))
    (.waiting (.elapsed _ _ _ r.took) rfl hlater), fun as => ?_, ?_⟩
  · rw [DaemonAttempt.noteAll_append, DaemonAttempt.noteAll_append, hnotes]
    rfl
  · rw [replies_append, replies_append, hquiet]
    rfl

/-- A round comes to a delay, and its end is the end of the delay. -/
theorem round_rests : ∃ trace d' secs,
    Executes ⟨⟨d, .top, signalled⟩, d.time, d.time⟩ trace
      ⟨⟨d', .resting secs, signalled⟩, d'.time, d'.time⟩ ∧
    d.round r = d'.delay secs ∧ d'.time = d.time + r.took ∧ Tells d d' trace ∧
    replies trace = [r.reply] := by
  obtain ⟨awaited, hawaits, hnotes, hquiet⟩ := awaits d r signalled
  have hjournal (source : MetadataSource) : (d.answered r source).journal =
      d.journal ++ [.request d.time d.refresh.source.request] := by
    rw [← d.refresh_journal, ← d.refresh_time]
    rfl
  cases hreply : d.refresh.source.receive r.reply with
  | mk fetched source =>
  cases fetched with
  | error fault =>
    refine ⟨_, d.answered r source, _,
      .snoc hawaits (.waiting (.missed (d.waited r) signalled _ _ hreply) rfl le_rfl),
      Daemon.round_missed hreply, d.waited_time r,
      .of_journal _ (hjournal source) fun as => ?_, ?_⟩
    · rw [DaemonAttempt.noteAll_append, hnotes]
      rfl
    · rw [replies_append, hquiet]
      rfl
  | ok snapshot =>
    cases hcycle :
      ((d.answered r source).manager.cycle snapshot).run (d.answered r source).site with
    | mk ended site =>
    obtain ⟨outcome, manager⟩ := ended
    have hdelivered : Executes ⟨⟨d, .top, signalled⟩, d.time, d.time⟩ _ _ :=
      .snoc hawaits (.waiting (.delivered (d.waited r) signalled _ _ hreply) rfl le_rfl)
    refine ⟨_, _, _, .snoc hdelivered (.waiting (.cycled _ signalled hcycle) rfl le_rfl),
      Daemon.round_delivered hreply hcycle, d.waited_time r,
      .of_journal [.request d.time d.refresh.source.request, .cycle (d.answered r source).time
        (d.answered r source).manager.engine.overrides snapshot outcome] ?_ fun as => ?_, ?_⟩
    · exact (congrArg (· ++ [_]) (hjournal source)).trans (List.append_assoc ..)
    · rw [DaemonAttempt.noteAll_append, DaemonAttempt.noteAll_append, hnotes]
      cases outcome <;> rfl
    · rw [replies_append, replies_append, hquiet]
      rfl

/-- The rounds of a daemon, one after the other. -/
theorem rounds_execute (rounds : List (Round N)) : ∃ trace,
    Executes ⟨⟨d, .top, signalled⟩, d.time, d.time⟩ trace
      ⟨⟨rounds.foldl Daemon.round d, .top, signalled⟩, (rounds.foldl Daemon.round d).time,
        (rounds.foldl Daemon.round d).time⟩ ∧
    Tells d (rounds.foldl Daemon.round d) trace ∧ replies trace = rounds.map (·.reply) := by
  induction rounds generalizing d with
  | nil => exact ⟨[], .nil, .of_journal [] (List.append_nil _).symm fun as => rfl, rfl⟩
  | cons r rounds ih =>
    obtain ⟨first, d', secs, hfirst, hround, -, htells, hreply⟩ := round_rests d r signalled
    obtain ⟨others, hothers, hmore, hreplies⟩ := ih (d.round r)
    have hend : ((d.round r).time : ℝ) = d'.time + (min secs Daemon.longestDelay : ℕ) := by
      rw [hround, Daemon.delay_time, Nat.cast_add]
    have hrested : Executes ⟨⟨d, .top, signalled⟩, d.time, d.time⟩
        (first ++ [(((d.round r).time : ℝ), .rested)])
        ⟨⟨d.round r, .top, signalled⟩, (d.round r).time, (d.round r).time⟩ := by
      rw [hend, hround]
      exact .snoc hfirst (.resting d' signalled secs (by simp))
    have hquiet : Tells d' (d.round r) [(((d.round r).time : ℝ), .rested)] := by
      rw [hround]
      exact .of_journal [] (List.append_nil _).symm fun as => rfl
    refine ⟨_, hrested.append hothers, (htells.append hquiet).append hmore, ?_⟩
    rw [replies_append, replies_append, hreply, hreplies]
    rfl

end Rounds

section Ends
variable (d : Daemon N)

/-- The signal is taken as soon as a request is sent. -/
theorem abandons : ∃ trace d',
    Executes ⟨⟨d, .top, false⟩, d.time, d.time⟩ trace ⟨⟨d', .stopping, true⟩, d.time, d.time⟩ ∧
    d.stop .duringRequest = d'.stop .duringDelay ∧ Tells d d' trace ∧ replies trace = [] := by
  obtain ⟨asked, hasks, hnotes, hquiet⟩ := asks d false d.time
  refine ⟨_, _, .snoc (.snoc hasks (.waiting (.signalled ..) rfl le_rfl))
    (.waiting (.tookRequesting d.refresh _ _) rfl le_rfl), rfl,
    .of_journal [.abandoned d.time d.refresh.source.request] ?_ fun as => ?_, ?_⟩
  · rw [← d.refresh_journal, ← d.refresh_time]
    rfl
  · rw [DaemonAttempt.noteAll_append, DaemonAttempt.noteAll_append, hnotes]
    rfl
  · rw [replies_append, replies_append, hquiet]
    rfl

/-- The signal is taken at the very end of a delay. -/
theorem wakes {secs : Nat} (hsecs : secs ≠ 0) : ∃ trace,
    Executes ⟨⟨d, .resting secs, false⟩, d.time, d.time⟩ trace
      ⟨⟨d.delay secs, .stopping, true⟩, (d.delay secs).time, (d.delay secs).time⟩ ∧
    Tells d (d.delay secs) trace ∧ replies trace = [] := by
  have hlater : (d.time : ℝ) ≤ (d.delay secs).time := by
    rw [Daemon.delay_time]
    exact_mod_cast Nat.le_add_right d.time _
  have hdue : ((d.delay secs).time : ℝ) ≤ d.time + (min secs Daemon.longestDelay : ℕ) := by
    rw [Daemon.delay_time, Nat.cast_add]
  have hpassed : Executes ⟨⟨d, .resting secs, false⟩, d.time, d.time⟩
      [(((d.delay secs).time : ℝ), .elapsed (min secs Daemon.longestDelay))] _ :=
    .single (.in_delay (.elapsed ..) nofun hlater hdue)
  exact ⟨_, .snoc (.snoc hpassed (.in_delay (.signalled ..) nofun le_rfl hdue))
    (.in_delay (.tookResting _ hsecs) nofun le_rfl hdue),
    .of_journal [] (List.append_nil _).symm fun as => rfl, rfl⟩

/-- A loop that took the signal flushes the ledger at once. -/
theorem stops (t : ℝ) : ∃ trace,
    Executes ⟨⟨d, .stopping, true⟩, t, t⟩ trace
      ⟨⟨(d.stop .duringDelay).2, .stopped (d.stop .duringDelay).1, true⟩, t, t⟩ ∧
    Tells d (d.stop .duringDelay).2 trace ∧ replies trace = [] := by
  cases hflush : (Site.flush : StateM N (Except Fault Unit)).run d.site with
  | mk answer site =>
  rw [Daemon.stop_eq hflush]
  exact ⟨_, .single (.waiting (.flushed d true hflush) rfl le_rfl),
    .of_journal [.flush answer] rfl fun as => rfl, rfl⟩

/-- A run of a daemon is an execution of its loop in time, with the requests at the seconds that the
journal tells. -/
theorem run_executes {rounds : List (Round N)} {s : Shutdown} (h : d.Lands rounds s) : ∃ trace t,
    Executes ⟨d.enter, d.time, d.time⟩ trace
      ⟨⟨(d.run rounds s).2, .stopped (d.run rounds s).1, true⟩, t, t⟩ ∧
    Tells d (d.run rounds s).2 trace ∧ replies trace = rounds.map (·.reply) := by
  cases s with
  | duringRequest =>
    obtain ⟨worked, hrounds, htells, hreplies⟩ := rounds_execute d false rounds
    obtain ⟨last, d', habandons, hend, htold, hquiet⟩ := abandons (rounds.foldl Daemon.round d)
    obtain ⟨flushed, hstops, hflush, hsilent⟩ := stops d' (rounds.foldl Daemon.round d).time
    rw [Daemon.run, hend]
    refine ⟨_, _, (hrounds.append habandons).append hstops, (htells.append htold).append hflush, ?_⟩
    simp only [replies_append, hreplies, hquiet, hsilent, List.append_nil]
  | duringDelay =>
    obtain ⟨earlier, r, rfl, hrests⟩ := h
    obtain ⟨worked, hrounds, htells, hreplies⟩ := rounds_execute d false earlier
    obtain ⟨last, d', secs, hlast, hround, htime, hmore, hreply⟩ :=
      round_rests (earlier.foldl Daemon.round d) r false
    obtain ⟨waited, hwakes, htold, hquiet⟩ := wakes d' (hrests.secs_ne_zero hround htime)
    obtain ⟨flushed, hstops, hflush, hsilent⟩ := stops (d'.delay secs) (d'.delay secs).time
    rw [Daemon.run_concat_delayed hround]
    refine ⟨_, _, ((hrounds.append hlast).append hwakes).append hstops,
      ((htells.append hmore).append htold).append hflush, ?_⟩
    simp only [replies_append, hreplies, hreply, hquiet, hsilent, List.append_nil, List.map_append,
      List.map_cons, List.map_nil]

end Ends
end TimedLoop

/-- A run of a daemon is an execution of its loop that gets the same replies. -/
theorem Daemon.run_executes {N : Type} [Site N] (d : Daemon N) {rounds : List (Round N)}
    {s : Shutdown} (h : d.Lands rounds s) :
    ∃ trace, d.enter.Executes trace ⟨(d.run rounds s).2, .stopped (d.run rounds s).1, true⟩ ∧
      trace.filterMap Occurrence.reply? = rounds.map (·.reply) := by
  obtain ⟨trace, t, htrace, -, hreplies⟩ := TimedLoop.run_executes d h
  exact ⟨_, htrace.forget, hreplies⟩

end ForwardedIp
