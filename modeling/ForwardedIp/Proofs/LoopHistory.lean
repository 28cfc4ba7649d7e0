import ForwardedIp.Daemon.Start
import ForwardedIp.Files.FileTree
import ForwardedIp.Proofs.Cycles
import ForwardedIp.Proofs.LoopClock
/-!
# The daemon loses and repeats nothing

Whatever the server answers, the machine does and the operator writes, and whenever the signal
comes: every snapshot that a request delivers goes through one cycle, in order, before the next
request is sent, and under the local overrides of the last load before its own request. Once the
signal is taken nothing begins any more, and the ledger is flushed once.
-/
namespace ForwardedIp

/-- The overrides and the snapshot of a cycle. -/
def DaemonEntry.cycle? : DaemonEntry → Option (LocalConfig × Snapshot)
  | .cycle _ overrides snapshot _ => some (overrides, snapshot)
  | _ => none

/-- The overrides that count before the first round: those that can be read at the start. -/
def Daemon.firstOverrides {N : Type} (d : Daemon N) : LocalConfig :=
  match (d.load.map (· d.site) : Option (Except Fault LocalConfig)) with
  | some (.ok overrides) => overrides
  | _ => .empty

/-- A daemon that has been set up and has done nothing yet. -/
structure Daemon.SetUp {N : Type} (d : Daemon N) : Prop where
  overrides : d.manager.engine.overrides = d.firstOverrides
  journal : d.journal = []

namespace Occurrence
variable {N : Type}

def delivered? : Occurrence N → Option Snapshot
  | .fetched _ (.ok snapshot) => some snapshot
  | _ => none

def cycle? : Occurrence N → Option (LocalConfig × Snapshot)
  | .cycled overrides snapshot _ => some (overrides, snapshot)
  | _ => none

/-- The overrides of a load that succeeded. -/
def overrides? : Occurrence N → Option LocalConfig
  | .loaded (some (.ok overrides)) => some overrides
  | _ => none

def flush? : Occurrence N → Option (Except Fault Unit)
  | .flushed result => some result
  | _ => none

end Occurrence

namespace History
variable {N : Type}

/-- The snapshots that requests delivered. -/
def delivered (past : List (Occurrence N)) : List Snapshot :=
  past.filterMap Occurrence.delivered?

/-- The snapshots with which cycles have run. -/
def handled (past : List (Occurrence N)) : List Snapshot :=
  (past.filterMap Occurrence.cycle?).map (·.2)

def flushes (past : List (Occurrence N)) : List (Except Fault Unit) :=
  past.filterMap Occurrence.flush?

/-- The overrides of the last load that succeeded, or the first ones. -/
def inForce (first : LocalConfig) (past : List (Occurrence N)) : LocalConfig :=
  (past.filterMap Occurrence.overrides?).getLast?.getD first

/-- Overrides were in force when the last request was sent. -/
def AtRequest (first : LocalConfig) (past : List (Occurrence N)) (overrides : LocalConfig) : Prop :=
  ∃ before request since, past = before ++ .sent request :: since ∧
    (∀ q, .sent q ∉ since) ∧ inForce first before = overrides

end History

open History

/-- What has to have happened, and what not, for something to happen. -/
def Occurrence.Lawful {N : Type} (first : LocalConfig) (past : List (Occurrence N)) :
    Occurrence N → Prop
  | .sent _ => .took ∉ past ∧ handled past = delivered past
  | .fetched _ _ => .took ∉ past ∧ handled past = delivered past
  | .cycled overrides snapshot _ => .took ∉ past ∧ delivered past = handled past ++ [snapshot] ∧
      AtRequest first past overrides
  | .took => .signalled ∈ past ∧ .took ∉ past ∧ handled past = delivered past
  | .flushed _ => .took ∈ past ∧ flushes past = []
  | _ => True

namespace Stage

/-- The snapshot of the cycle that runs. -/
def running? : Stage → Option Snapshot
  | .cycling snapshot => some snapshot
  | _ => none

/-- A request was sent, and if it delivered a snapshot, the cycle with that has not returned. -/
def asked : Stage → Bool
  | .requesting _ _ | .cycling _ => true
  | _ => false

/-- The signal was taken. -/
def taken : Stage → Bool
  | .stopping | .stopped _ => true
  | _ => false

def result? : Stage → Option (Except Fault Unit)
  | .stopped result => some result
  | _ => none

end Stage

namespace History
variable {N : Type} {first : LocalConfig} {past : List (Occurrence N)} {x : Occurrence N}
  {overrides : LocalConfig}

theorem delivered_snoc : delivered (past ++ [x]) = delivered past ++ x.delivered?.toList := by
  rw [delivered, List.filterMap_append, ← delivered]
  cases h : x.delivered? <;> simp [h]

theorem handled_snoc :
    handled (past ++ [x]) = handled past ++ (x.cycle?.map (·.2)).toList := by
  rw [handled, List.filterMap_append, List.map_append, ← handled]
  cases h : x.cycle? <;> simp [h]

theorem flushes_snoc : flushes (past ++ [x]) = flushes past ++ x.flush?.toList := by
  rw [flushes, List.filterMap_append, ← flushes]
  cases h : x.flush? <;> simp [h]

theorem inForce_snoc :
    inForce first (past ++ [x]) = x.overrides?.getD (inForce first past) := by
  rw [inForce, List.filterMap_append]
  cases h : x.overrides? <;> simp [inForce, h]

theorem AtRequest.snoc (h : AtRequest first past overrides) (hx : ∀ q, x ≠ .sent q) :
    AtRequest first (past ++ [x]) overrides := by
  obtain ⟨before, request, since, rfl, hsince, hforce⟩ := h
  refine ⟨before, request, since ++ [x], by simp, fun q hq => ?_, hforce⟩
  rcases List.mem_append.mp hq with hq | hq
  · exact hsince q hq
  · exact hx q (List.mem_singleton.mp hq).symm

theorem atRequest_sent (request : HttpRequest) :
    AtRequest first (past ++ [.sent request]) (inForce first past) :=
  ⟨past, request, [], rfl, fun _ => List.not_mem_nil, rfl⟩

end History

namespace Daemon
variable {N : Type}

theorem refresh_overrides (d : Daemon N) : d.refresh.manager.engine.overrides =
    (.loaded (d.load.map (· d.site)) : Occurrence N).overrides?.getD
      d.manager.engine.overrides := by
  unfold refresh
  cases d.load with
  | none => rfl
  | some load =>
    cases hload : load d.site <;> simp only [Option.map_some, hload] <;> rfl

end Daemon

theorem Manager.cycle_overrides {N : Type} [Site N] {m m' : Manager} {snapshot : Snapshot}
    {outcome : Except Fault CycleOutcome} {n n' : N}
    (h : (m.cycle snapshot).run n = ((outcome, m'), n')) :
    m'.engine.overrides = m.engine.overrides := by
  cases hstep : (m.engine.cycle snapshot).run n with
  | mk step site =>
  rw [cycle, run_bind hstep] at h
  cases h
  exact (Engine.cycles hstep).overrides_eq

namespace DaemonLoop
variable {N : Type} {l l' : DaemonLoop N} {x : Occurrence N}

/-- What the daemon in a loop remembers, and where the loop stands, fits what has happened. -/
structure Sound (first : LocalConfig) (past : List (Occurrence N)) (l : DaemonLoop N) : Prop where
  overrides : l.daemon.manager.engine.overrides = inForce first past
  journal : l.daemon.journal.filterMap DaemonEntry.cycle? = past.filterMap Occurrence.cycle?
  signalled : l.signalled = true → .signalled ∈ past
  taken : l.stage.taken = true ↔ .took ∈ past
  delivered : History.delivered past = handled past ++ l.stage.running?.toList
  asked : l.stage.asked = true → AtRequest first past (inForce first past)
  flushes : (History.flushes past = [] ∧ l.stage.result? = none) ∨
    ∃ answer result, History.flushes past = [answer] ∧ l.stage.result? = some result ∧
      (result = .ok () ↔ answer = .ok ())

namespace Sound
variable {first : LocalConfig} {past : List (Occurrence N)}

theorem untaken (h : Sound first past l) (hstage : l.stage.taken = false) : .took ∉ past := by
  rw [← h.taken, hstage]
  exact Bool.false_ne_true

theorem settled (h : Sound first past l) (hstage : l.stage.running? = none) :
    handled past = History.delivered past := by
  rw [h.delivered, hstage]
  exact (List.append_nil _).symm

theorem unflushed (h : Sound first past l) (hstage : l.stage.result? = none) :
    History.flushes past = [] := by
  rcases h.flushes with ⟨hflushes, -⟩ | ⟨answer, result, -, hresult, -⟩
  · exact hflushes
  · rw [hstage] at hresult
    cases hresult

theorem enter {d : Daemon N} (hd : d.SetUp) : Sound d.firstOverrides [] d.enter where
  overrides := hd.overrides
  journal := by
    rw [Daemon.enter, hd.journal]
    rfl
  signalled := Bool.noConfusion
  taken := by simp [Daemon.enter, Stage.taken]
  delivered := rfl
  asked := Bool.noConfusion
  flushes := .inl ⟨rfl, rfl⟩

end Sound

variable [Site N]

namespace Moves

/-- A snapshot is delivered to the cycle that starts, and a cycle returns with the one that runs. -/
theorem running (h : Moves l x l') : l.stage.running?.toList ++ x.delivered?.toList =
    (x.cycle?.map (·.2)).toList ++ l'.stage.running?.toList := by
  cases h <;> simp [Stage.running?, Occurrence.delivered?, Occurrence.cycle?]

theorem taken (h : Moves l x l') :
    l'.stage.taken = true ↔ l.stage.taken = true ∨ .took = x := by
  cases h <;> simp [Stage.taken]

theorem asked (h : Moves l x l') (hasked : l'.stage.asked = true) : (∃ q, x = .sent q) ∨
    l.stage.asked = true ∧ (∀ q, x ≠ .sent q) ∧ x.overrides? = none := by
  cases h <;> simp_all [Stage.asked, Occurrence.overrides?]

theorem signalled_of (h : Moves l x l') (hsignalled : l'.signalled = true) :
    l.signalled = true ∨ .signalled = x := by
  cases h <;> simp_all

theorem overrides (h : Moves l x l') : l'.daemon.manager.engine.overrides =
    x.overrides?.getD l.daemon.manager.engine.overrides := by
  cases h with
  | loaded d signalled => exact d.refresh_overrides
  | cycled d signalled hcycle =>
    have hoverrides := Manager.cycle_overrides hcycle
    exact hoverrides
  | _ => rfl

theorem journal (h : Moves l x l') : l'.daemon.journal.filterMap DaemonEntry.cycle? =
    l.daemon.journal.filterMap DaemonEntry.cycle? ++ x.cycle?.toList := by
  cases h with
  | loaded d signalled => simp [d.refresh_journal, Occurrence.cycle?]
  | _ =>
    simp [Daemon.note, Daemon.wait, Daemon.delay, DaemonEntry.cycle?, Occurrence.cycle?]

/-- The ledger is flushed as the loop comes to its end, and how it ends is how that went. -/
theorem flush (h : Moves l x l') : (x.flush? = none ∧ l'.stage.result? = l.stage.result?) ∨
    ∃ answer result, x = .flushed answer ∧ l.stage = .stopping ∧ l'.stage = .stopped result ∧
      (result = .ok () ↔ answer = .ok ()) := by
  cases h with
  | @flushed d signalled answer site hflush =>
    refine .inr ⟨answer, _, rfl, rfl, rfl, ?_⟩
    cases answer with
    | ok answer => exact Iff.rfl
    | error fault => exact ⟨nofun, nofun⟩
  | _ => exact .inl ⟨rfl, rfl⟩

end Moves

namespace Sound
variable {first : LocalConfig} {past : List (Occurrence N)}

/-- What happens next is lawful. -/
theorem lawful (h : Sound first past l) (hx : Moves l x l') : x.Lawful first past := by
  cases hx with
  | sent d signalled => exact ⟨h.untaken rfl, h.settled rfl⟩
  | delivered d signalled since request hreply => exact ⟨h.untaken rfl, h.settled rfl⟩
  | missed d signalled since request hreply => exact ⟨h.untaken rfl, h.settled rfl⟩
  | cycled d signalled hcycle =>
    refine ⟨h.untaken rfl, h.delivered, ?_⟩
    have hoverrides : d.manager.engine.overrides = inForce first past := h.overrides
    rw [hoverrides]
    exact h.asked rfl
  | tookReady d => exact ⟨h.signalled rfl, h.untaken rfl, h.settled rfl⟩
  | tookRequesting d since request => exact ⟨h.signalled rfl, h.untaken rfl, h.settled rfl⟩
  | tookResting d hsecs => exact ⟨h.signalled rfl, h.untaken rfl, h.settled rfl⟩
  | flushed d signalled hflush => exact ⟨h.taken.mp rfl, h.unflushed rfl⟩
  | _ => exact trivial

theorem move (h : Sound first past l) (hx : Moves l x l') : Sound first (past ++ [x]) l' where
  overrides := by rw [hx.overrides, inForce_snoc, h.overrides]
  journal := by
    rw [hx.journal, h.journal, List.filterMap_append]
    cases hcycle : x.cycle? <;> simp [hcycle]
  signalled hsignalled := by
    rw [List.mem_append, List.mem_singleton]
    exact (hx.signalled_of hsignalled).imp_left h.signalled
  taken := by rw [hx.taken, h.taken, List.mem_append, List.mem_singleton]
  delivered := by
    rw [delivered_snoc, handled_snoc, h.delivered, List.append_assoc, List.append_assoc,
      hx.running]
  asked hasked := by
    rcases hx.asked hasked with ⟨request, rfl⟩ | ⟨hearlier, hunsent, hunloaded⟩
    · rw [inForce_snoc]
      exact atRequest_sent request
    · rw [inForce_snoc, hunloaded]
      exact (h.asked hearlier).snoc hunsent
  flushes := by
    rw [flushes_snoc]
    rcases hx.flush with ⟨hquiet, hresult⟩ | ⟨answer, result, rfl, hstopping, hstopped, hends⟩
    · rw [hquiet, hresult, Option.toList_none, List.append_nil]
      exact h.flushes
    · refine .inr ⟨answer, result, ?_, by rw [hstopped]; rfl, hends⟩
      rw [h.unflushed (by rw [hstopping]; rfl)]
      rfl

/-- What has happened always fits. -/
theorem executes {start : DaemonLoop N} (h : Sound first [] start)
    (hexecutes : start.Executes past l) : Sound first past l := by
  induction hexecutes with
  | nil => exact h
  | snoc earlier last ih => exact ih.move last

end Sound

/-- What a loop owes for what has happened to it. -/
structure Faithful (first : LocalConfig) (trace : List (Occurrence N)) (l : DaemonLoop N) :
    Prop where
  lawful : ∀ past x later, trace = past ++ x :: later → x.Lawful first past
  /-- The journal shows the cycles that have run. -/
  journal : l.daemon.journal.filterMap DaemonEntry.cycle? = trace.filterMap Occurrence.cycle?
  /-- A loop that took the signal has flushed the ledger, or flushes it next. -/
  ending : .took ∈ trace → (∃ result, l.stage = .stopped result) ∨ ∃ answer l',
    Moves l (.flushed answer) l'
  /-- By the end every snapshot was handled, and the one flush decided the result. -/
  ended : ∀ result, l.stage = .stopped result → handled trace = delivered trace ∧
    ∃ answer, flushes trace = [answer] ∧ (result = .ok () ↔ answer = .ok ())

theorem Executes.faithful {start : DaemonLoop N} {first : LocalConfig}
    {trace : List (Occurrence N)} (h : start.Executes trace l) (hstart : Sound first [] start) :
    Faithful first trace l := by
  have hsound : Sound first trace l := hstart.executes h
  refine ⟨?_, hsound.journal, ?_, ?_⟩
  · rintro past x later rfl
    obtain ⟨l₁, l₂, hpast, hmove⟩ := h.moved
    exact (hstart.executes hpast).lawful hmove
  · intro htook
    obtain ⟨d, stage, signalled⟩ := l
    have htaken : stage.taken = true := hsound.taken.mpr htook
    cases stage with
    | stopping => exact .inr ⟨_, _, .flushed d signalled rfl⟩
    | stopped result => exact .inl ⟨result, rfl⟩
    | _ => cases htaken
  · intro result hresult
    refine ⟨hsound.settled (by rw [hresult]; rfl), ?_⟩
    rcases hsound.flushes with ⟨-, hnone⟩ | ⟨answer, ended, hflushes, hsome, hends⟩
    · rw [hresult] at hnone
      cases hnone
    · rw [hresult] at hsome
      obtain rfl := Option.some.inj hsome
      exact ⟨answer, hflushes, hends⟩

end DaemonLoop

theorem Manager.engine_of_start {c : EngineConfig} {overrides : LocalConfig} {m : Manager}
    (h : start c overrides = .ok m) : m.engine = Engine.fresh overrides := by
  unfold start at h
  split at h
  · cases h
  · split at h
    · cases h
    · cases h
      rfl

namespace Daemon

theorem setUp_of_start {F : Type} [FileSystem F] {c : Config} {p : Premises F}
    {d : Daemon (DaemonSite F)} (h : (start c p).1 = .ok d) :
    d.SetUp ∧ d.load = c.localConfigPath.map loadOverrides := by
  unfold start at h
  cases hconnect : LinuxHost.connect p.kernel true with
  | error fault =>
    rw [hconnect] at h
    cases h
  | ok host =>
    rw [hconnect] at h
    simp only at h
    obtain ⟨ledger, -, h⟩ := ok_of_bind h
    obtain ⟨source, -, h⟩ := ok_of_bind h
    obtain ⟨manager, hmanager, h⟩ := ok_of_bind h
    obtain rfl := Except.ok.inj h
    exact ⟨⟨by rw [Manager.engine_of_start hmanager]; rfl, rfl⟩, rfl⟩

theorem loadOverrides_missing {F : Type} [FileSystem F] {path : String} {m : DaemonSite F}
    (h : FileSystem.read m.ledger.files path = .error .notFound) :
    loadOverrides path m = .ok .empty := by
  rw [loadOverrides, LocalConfig.load, FileSystem.readText, h]

/-- The loop loses and repeats nothing. However the server answers, the site behaves and changes,
the operator writes and the signal comes, everything that happens to a daemon that was set up is
lawful: each snapshot that a request delivered goes through one cycle, in order, before the next
request is sent, under the overrides of the last load that succeeded before its own request; once
the signal is taken, which is never inside a cycle, nothing begins, and the ledger is flushed once,
which decides how the daemon ends. The rounds of a daemon are such executions, a start that succeeds
sets a daemon up, and a missing file holds no overrides. -/
theorem loop_loses_nothing {N : Type} [Site N] (d : Daemon N) (hd : d.SetUp) :
    (∀ trace l, d.enter.Executes trace l → l.Faithful d.firstOverrides trace) ∧
    (∀ rounds s, d.Lands rounds s → ∃ trace,
      d.enter.Executes trace ⟨(d.run rounds s).2, .stopped (d.run rounds s).1, true⟩ ∧
        trace.filterMap Occurrence.reply? = rounds.map (·.reply)) ∧
    ∀ (F : Type) [FileSystem F] (c : Config),
      (∀ (p : Premises F) started, (start c p).1 = .ok started →
        started.SetUp ∧ started.load = c.localConfigPath.map loadOverrides) ∧
      ∀ path (m : DaemonSite F), FileSystem.read m.ledger.files path = .error .notFound →
        loadOverrides path m = .ok .empty := by
  have hsound : DaemonLoop.Sound d.firstOverrides [] d.enter := .enter hd
  refine ⟨fun trace l h => h.faithful hsound, fun rounds s h => d.run_executes h, ?_⟩
  intro F _ c
  exact ⟨fun p started h => setUp_of_start h, fun path m h => loadOverrides_missing h⟩

/-- A tree with nothing but a file of local overrides. -/
def overridesFile (text : String) : FileTree := ⟨[(["/", "overrides"], .file text.toUTF8)]⟩

/-- A machine whose operator disables the manager. -/
def operated : Premises FileTree :=
  ⟨{}, overridesFile "\x7b\"addressManager\": \x7b\"disable\": true\x7d\x7d", ⟨0, 0, 0⟩⟩

def disabling : LocalConfig := ⟨[("addressManager", [("disable", "true")])]⟩

def polling : Config where
  metadata := { waitForChange := false }
  ledger := .memory
  localConfigPath := some "/overrides"

/-- The file breaks while the first request is under way, and goes while the third one is. -/
def editedRounds : List (Round (DaemonSite FileTree)) :=
  [⟨fun m => { m with ledger.files := overridesFile "" }, .answered 200 none "{}", 1⟩,
    ⟨id, .answered 200 none "{}", 1⟩,
    ⟨fun m => { m with ledger.files := {} }, .failed "timed out", 1⟩]

def lastRound : Round (DaemonSite FileTree) := ⟨id, .answered 200 none "{}", 1⟩

/-- The file that cannot be read changes nothing, and the missing one ends the overrides. -/
theorem operated_daemon_faithful : ∃ d trace result, (start polling operated).1 = .ok d ∧
    d.enter.Executes trace
      ⟨(d.run (editedRounds ++ [lastRound]) .duringDelay).2, .stopped result, true⟩ ∧
    trace.filterMap Occurrence.cycle? = [(disabling, {}), (disabling, {}), (.empty, {})] ∧
    delivered trace = [{}, {}, {}] ∧ ∃ answer, flushes trace = [answer] ∧
      (result = .ok () ↔ answer = .ok ()) := by
  have hany : ((start polling operated).1.toOption.any fun d =>
      decide ((editedRounds.foldl round d).Rests lastRound) &&
      (d.run (editedRounds ++ [lastRound]) .duringDelay).2.journal.filterMap DaemonEntry.cycle? =
        [(disabling, {}), (disabling, {}), (.empty, {})]) = true := by decide +kernel
  cases hstart : (start polling operated).1 with
  | error fault =>
    rw [hstart] at hany
    cases hany
  | ok d =>
    rw [hstart] at hany
    obtain ⟨hrests, hcycles⟩ := Bool.and_eq_true_iff.mp hany
    obtain ⟨hfaithful, hruns, -⟩ := loop_loses_nothing d (setUp_of_start hstart).1
    obtain ⟨trace, hexecutes, -⟩ := hruns (editedRounds ++ [lastRound]) .duringDelay
      ⟨editedRounds, lastRound, rfl, of_decide_eq_true hrests⟩
    have hfaith := hfaithful trace _ hexecutes
    have hshown := hfaith.journal.symm.trans (of_decide_eq_true hcycles)
    obtain ⟨hhandled, hflushed⟩ := hfaith.ended _ rfl
    refine ⟨d, trace, _, rfl, hexecutes, hshown, ?_, hflushed⟩
    rw [← hhandled, handled, hshown]
    rfl

end Daemon

end ForwardedIp
