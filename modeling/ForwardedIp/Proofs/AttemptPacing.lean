import Mathlib.Tactic.Linarith
import ForwardedIp.Proofs.AcceptedConfigs
import ForwardedIp.Proofs.AttemptSpacing
/-!
# Failures cannot make the daemon spin

A configuration that the daemon accepts has a retry delay and a poll interval of a second at least.
A failed attempt is followed by the one, and an attempt that worked by the other unless the server
holds requests. So however attempts fail and work, those that fail start a second apart, and if the
server does not hold requests, all of them do.
-/
namespace ForwardedIp

namespace DaemonConfig

/-- What a variable says: the default if it is not set, else what its text without the blanks
around it reads as. -/
def Says {α : Type} (vars : String → Option String) (read : List Char → Except String α)
    (name : String) (default value : α) : Prop :=
  (vars name = none ∧ value = default) ∨
    ∃ raw, vars name = some raw ∧ read (Text.trim raw.toList) = .ok value

variable {α : Type} {vars : String → Option String} {read : List Char → Except String α}
  {name : String} {default value : α} {c : DaemonConfig}

theorem says_of_variableOr (h : variableOr vars read name default = .ok value) :
    Says vars read name default value := by
  unfold variableOr at h
  cases hvar : vars name with
  | none =>
    rw [hvar] at h
    exact .inl ⟨hvar, (Except.ok.inj h).symm⟩
  | some raw =>
    simp only [hvar] at h
    refine .inr ⟨raw, hvar, ?_⟩
    cases hread : read (Text.trim raw.toList) with
    | ok found =>
      rw [hread] at h
      exact congrArg Except.ok (Except.ok.inj h)
    | error why =>
      rw [hread] at h
      cases h

/-- How the daemon is paced by its variables. -/
structure PacedBy (c : DaemonConfig) (vars : String → Option String) : Prop where
  retry : Says vars readNumber "FWDIP_RETRY_DELAY_SECS" 5 c.core.engine.retryDelaySecs
  poll : Says vars readNumber "FWDIP_POLL_INTERVAL_SECS" 5 c.core.engine.pollIntervalSecs
  waits : Says vars readFlag "FWDIP_WAIT_FOR_CHANGE" true c.core.metadata.waitForChange

theorem pacedBy_of_ofVariables (h : ofVariables vars = .ok c) : c.PacedBy vars := by
  obtain ⟨metadata, hmetadata, h⟩ := ok_of_bind h
  obtain ⟨ledger, -, h⟩ := ok_of_bind h
  obtain ⟨engine, hengine, h⟩ := ok_of_bind h
  cases h
  obtain ⟨_, -, hmetadata⟩ := ok_of_bind hmetadata
  obtain ⟨_, hwaits, hmetadata⟩ := ok_of_bind hmetadata
  obtain ⟨_, hpoll, hengine⟩ := ok_of_bind hengine
  obtain ⟨_, hretry, hengine⟩ := ok_of_bind hengine
  cases hmetadata
  cases hengine
  exact ⟨says_of_variableOr hretry, says_of_variableOr hpoll, says_of_variableOr hwaits⟩

/-- The seconds from the end of an attempt to the next request. -/
def lapse (c : DaemonConfig) (failed : Bool) : Nat :=
  if failed then c.core.engine.retryDelaySecs.toNat
  else if c.core.metadata.waitForChange then 0
  else c.core.engine.pollIntervalSecs.toNat

end DaemonConfig

/-- A daemon that is paced as a configuration says. -/
structure Daemon.Follows {N : Type} (d : Daemon N) (c : DaemonConfig) : Prop where
  retry : d.retryDelaySecs = c.core.engine.retryDelaySecs.toNat
  poll : d.pollIntervalSecs = c.core.engine.pollIntervalSecs.toNat
  waits : d.source.waits = c.core.metadata.waitForChange

/-- A daemon that started is paced as its configuration says. -/
theorem Daemon.follows_of_start {F : Type} [FileSystem F] {c : DaemonConfig} {p : Premises F}
    {d : Daemon (DaemonSite F)} (h : (start c.core p).1 = .ok d) : d.Follows c := by
  unfold start at h
  cases hconnect : LinuxHost.connect p.kernel true with
  | error fault =>
    rw [hconnect] at h
    cases h
  | ok host =>
    rw [hconnect] at h
    simp only at h
    obtain ⟨ledger, -, h⟩ := ok_of_bind h
    obtain ⟨source, hsource, h⟩ := ok_of_bind h
    obtain ⟨manager, -, h⟩ := ok_of_bind h
    obtain rfl := Except.ok.inj h
    refine ⟨rfl, rfl, ?_⟩
    cases hstarted : MetadataSource.start c.core.metadata none with
    | ok started =>
      rw [hstarted] at hsource
      cases hsource
      exact (MetadataSource.start_ok hstarted).1
    | error fault =>
      rw [hstarted] at hsource
      cases fault <;> cases hsource

/-- No delay of an accepted configuration is cut short. -/
theorem Daemon.Follows.lapse_eq {N : Type} {d : Daemon N} {c : DaemonConfig} (h : d.Follows c)
    (hlimits : c.Limits) : d.lapse = c.lapse := by
  obtain ⟨hretry, hpoll, hwaits⟩ := h
  have hlong : 3600 ≤ longestDelay := by decide
  funext failed
  rw [lapse, hretry, hpoll, hwaits, ← DaemonConfig.lapse]
  refine min_eq_left (le_trans ?_ hlong)
  unfold DaemonConfig.lapse
  split
  · exact hlimits.retry.2.trans (by decide)
  · split
    · exact Nat.zero_le _
    · exact hlimits.poll.2

namespace DaemonAttempt
variable {lapse : Bool → Nat} {as bs : List DaemonAttempt} {a : DaemonAttempt}

/-- An attempt that has ended and has failed. -/
def Failed (a : DaemonAttempt) : Prop := ∃ finish, a.ended = some (finish, true)

/-- Attempts start in order, and after some of them a second passes at least. -/
def InOrder (p : DaemonAttempt → Prop) (later earlier : DaemonAttempt) : Prop :=
  earlier.start ≤ later.start ∧ (p earlier → earlier.start + 1 ≤ later.start)

theorem Due.inOrder {p : DaemonAttempt → Prop} {later earlier : DaemonAttempt}
    (h : earlier.Due lapse later.start)
    (hp : p earlier → ∀ finish failed, earlier.ended = some (finish, failed) →
      1 ≤ lapse failed) : InOrder p later earlier := by
  obtain ⟨finish, failed, hended, hstart, hlater⟩ := h
  constructor
  · rw [hlater]
    exact le_add_of_le_of_nonneg hstart (Nat.cast_nonneg _)
  · intro hearlier
    have hlapse : (1 : ℝ) ≤ lapse failed := by exact_mod_cast hp hearlier finish failed hended
    rw [hlater]
    exact add_le_add hstart hlapse

theorem Spaced.pairwise {p : DaemonAttempt → Prop} (h : Spaced lapse as)
    (hp : ∀ a, p a → ∀ finish failed, a.ended = some (finish, failed) → 1 ≤ lapse failed) :
    as.Pairwise (InOrder p) := by
  have htrans : IsTrans DaemonAttempt (InOrder p) := by
    refine ⟨fun a b c hab hbc => ⟨hbc.1.trans hab.1, fun hc => (hbc.2 hc).trans hab.1⟩⟩
  exact (h.imp fun later earlier hdue => hdue.inOrder (hp earlier)).pairwise

/-- Attempts that start a second apart are no more than the seconds between them and one. -/
theorem start_of_apart {w : ℝ} (h : (a :: bs).Pairwise fun later earlier =>
    earlier.start + 1 ≤ later.start) (hw : ∀ b ∈ a :: bs, w ≤ b.start) :
    w + bs.length ≤ a.start := by
  induction bs generalizing a with
  | nil => simpa using hw a
  | cons b bs ih =>
    obtain ⟨ha, hrest⟩ := List.pairwise_cons.mp h
    have hlast := ih hrest fun c hc => hw c (List.mem_cons_of_mem a hc)
    have hgap := ha b List.mem_cons_self
    push_cast [List.length_cons]
    linarith

/-- In a window of some seconds there is room for as many attempts as seconds, and one more. -/
theorem length_of_window {p : DaemonAttempt → Prop} (has : as.Pairwise (InOrder p))
    (hsub : bs.Sublist as) {w t : ℝ} (ht : 0 ≤ t)
    (hbs : ∀ b ∈ bs, p b ∧ w ≤ b.start ∧ b.start ≤ w + t) : (bs.length : ℝ) ≤ t + 1 := by
  have hapart : bs.Pairwise fun later earlier => earlier.start + 1 ≤ later.start :=
    (has.sublist hsub).imp_of_mem fun _ hearlier hinorder => hinorder.2 (hbs _ hearlier).1
  cases bs with
  | nil =>
    rw [List.length_nil, Nat.cast_zero]
    linarith
  | cons b bs =>
    have hlast := start_of_apart hapart fun c hc => (hbs c hc).2.1
    have hb := (hbs b List.mem_cons_self).2.2
    push_cast [List.length_cons]
    linarith

end DaemonAttempt

namespace TimedLoop
variable {N : Type} [Site N]

/-- How the attempts of a loop are paced. -/
structure PacedAs (c : DaemonConfig) (trace : List (ℝ × Occurrence N)) (l : TimedLoop N) :
    Prop where
  /-- A request is sent as soon as the pause after the attempt before it has passed. -/
  spaced : DaemonAttempt.Spaced c.lapse (DaemonAttempt.ofTrace trace)
  /-- The request after an attempt that has ended is sent then, unless the signal is taken. -/
  goes_on : ∀ a as finish failed, DaemonAttempt.ofTrace trace = a :: as →
    a.ended = some (finish, failed) → l.loop.stage.taken = false →
      l.now ≤ finish + c.lapse failed ∧ ∃ more l', l.Executes more l' ∧
        DaemonAttempt.ofTrace (trace ++ more) = ⟨finish + c.lapse failed, none⟩ :: a :: as
  /-- Attempts that fail start a second apart. -/
  failures : ∀ failing, List.Sublist failing (DaemonAttempt.ofTrace trace) → ∀ w t : ℝ,
    0 ≤ t → (∀ a ∈ failing, a.Failed ∧ w ≤ a.start ∧ a.start ≤ w + t) →
      (failing.length : ℝ) ≤ t + 1
  /-- All attempts do, if the server does not hold requests. -/
  requests : c.core.metadata.waitForChange = false → ∀ attempts,
    List.Sublist attempts (DaemonAttempt.ofTrace trace) → ∀ w t : ℝ, 0 ≤ t →
      (∀ a ∈ attempts, w ≤ a.start ∧ a.start ≤ w + t) → (attempts.length : ℝ) ≤ t + 1

theorem pacedAs_of_executes {c : DaemonConfig} {d : Daemon N} {t₀ : ℝ}
    {trace : List (ℝ × Occurrence N)} {l : TimedLoop N} (hlimits : c.Limits) (hd : d.Follows c)
    (h : Executes ⟨d.enter, t₀, t₀⟩ trace l) : PacedAs c trace l := by
  have hpaced : Paced d.lapse (DaemonAttempt.ofTrace trace) l := (Paced.enter d t₀).executes h
  rw [hd.lapse_eq hlimits] at hpaced
  refine ⟨hpaced.spaced, ?_, ?_, ?_⟩
  · intro a as finish failed has hended htaken
    rw [has] at hpaced
    obtain ⟨hnow, more, l', hmore, hnotes⟩ := hpaced.goes_on hended htaken
    refine ⟨hnow, more, l', hmore, ?_⟩
    rw [DaemonAttempt.ofTrace, DaemonAttempt.noteAll_append, ← DaemonAttempt.ofTrace, has, hnotes]
  · intro failing hsub w t ht hwindow
    have hretry : ∀ a : DaemonAttempt, a.Failed → ∀ finish failed,
        a.ended = some (finish, failed) → 1 ≤ c.lapse failed := by
      rintro a ⟨finish, hfailed⟩ finish' failed hended
      rw [hfailed] at hended
      cases hended
      exact hlimits.retry.1
    exact DaemonAttempt.length_of_window (hpaced.spaced.pairwise hretry) hsub ht hwindow
  · intro hwaits attempts hsub w t ht hwindow
    have hpauses : ∀ a : DaemonAttempt, True → ∀ finish failed,
        a.ended = some (finish, failed) → 1 ≤ c.lapse failed := by
      intro a _ finish failed _
      unfold DaemonConfig.lapse
      rw [hwaits]
      split
      · exact hlimits.retry.1
      · exact hlimits.poll.1
    exact DaemonAttempt.length_of_window (hpaced.spaced.pairwise hpauses) hsub ht
      fun a ha => ⟨trivial, hwindow a ha⟩

end TimedLoop

namespace Daemon

/-- Failures cannot make the daemon spin. What it accepts from its environment has a retry delay of
1 to 300 seconds and a poll interval of 1 to 3600 seconds, and a daemon that starts is paced by
them. Whatever the server answers, the site does and whenever the signal comes: the next request
starts exactly the retry delay after an attempt that failed, and exactly the poll interval after one
that worked if the server does not hold requests. So of the attempts that start within some seconds
no more fail than these seconds and one, and there are no more in all if the server does not hold
requests. The rounds of a daemon are such executions, with the times that the journal tells. -/
theorem attempts_paced {vars : String → Option String} {c : DaemonConfig}
    (hread : DaemonConfig.ofVariables vars = .ok c) (hvalid : c.validate = .ok ()) :
    (c.PacedBy vars ∧ c.Limits) ∧
    (∀ (F : Type) [FileSystem F] (p : Premises F) (d : Daemon (DaemonSite F)),
      (start c.core p).1 = .ok d → d.Follows c) ∧
    ∀ (N : Type) [Site N] (d : Daemon N), d.Follows c →
      (∀ t₀ trace l, TimedLoop.Executes ⟨d.enter, t₀, t₀⟩ trace l →
        TimedLoop.PacedAs c trace l) ∧
      ∀ rounds s, d.Lands rounds s → ∃ trace t,
        TimedLoop.Executes ⟨d.enter, d.time, d.time⟩ trace
          ⟨⟨(d.run rounds s).2, .stopped (d.run rounds s).1, true⟩, t, t⟩ ∧
        TimedLoop.Tells d (d.run rounds s).2 trace := by
  obtain ⟨-, hlimits⟩ := DaemonConfig.limits_of_validate hvalid
  refine ⟨⟨DaemonConfig.pacedBy_of_ofVariables hread, hlimits⟩,
    fun F _ p d hstart => follows_of_start hstart, fun N _ d hd => ⟨?_, ?_⟩⟩
  · intro t₀ trace l hexecutes
    exact TimedLoop.pacedAs_of_executes hlimits hd hexecutes
  · intro rounds s hlands
    obtain ⟨trace, t, hexecutes, htells, -⟩ := TimedLoop.run_executes d hlands
    exact ⟨trace, t, hexecutes, htells⟩

/-- An environment that has the server polled. -/
def pollingVariables : String → Option String
  | "FWDIP_LEDGER_TYPE" => some "memory"
  | "FWDIP_WAIT_FOR_CHANGE" => some "false"
  | "FWDIP_POLL_INTERVAL_SECS" => some " 20 "
  | "FWDIP_RETRY_DELAY_SECS" => some "+3"
  | _ => none

def pollingConfig : DaemonConfig where
  core := {
    metadata := { waitForChange := false }
    ledger := .memory
    engine := { pollIntervalSecs := 20, retryDelaySecs := 3 } }

/-- A round that fails after a second, one that works, and one that fails. -/
def mixedRounds : List (Round (DaemonSite FileTree)) :=
  [⟨id, .failed "timed out", 1⟩, ⟨id, .answered 200 none "{}", 1⟩, ⟨id, .failed "timed out", 1⟩]

theorem mixed_rounds_told :
    ((start pollingConfig.core ⟨{}, ({} : FileTree), ⟨0, 0, 0⟩⟩).1.toOption.any fun d =>
      d.journal.filterMap DaemonEntry.requestTime? = [] &&
      (d.run mixedRounds .duringRequest).2.journal.filterMap DaemonEntry.requestTime? =
        [0, 4, 25, 29]) = true := by
  decide +kernel

theorem mixed_rounds_paced : DaemonConfig.ofVariables pollingVariables = .ok pollingConfig ∧
    pollingConfig.validate = .ok () ∧
    ∃ d trace l, (start pollingConfig.core ⟨{}, ({} : FileTree), ⟨0, 0, 0⟩⟩).1 = .ok d ∧
      TimedLoop.Executes ⟨d.enter, d.time, d.time⟩ trace l ∧
      (DaemonAttempt.ofTrace trace).map (·.start) = [29, 25, 4, 0] ∧
      TimedLoop.PacedAs pollingConfig trace l := by
  have hread : DaemonConfig.ofVariables pollingVariables = .ok pollingConfig := by rfl
  have hvalid : pollingConfig.validate = .ok () := by rfl
  obtain ⟨-, hstarts, hpaces⟩ := attempts_paced hread hvalid
  have hany := mixed_rounds_told
  cases hstart : (start pollingConfig.core ⟨{}, ({} : FileTree), ⟨0, 0, 0⟩⟩).1 with
  | error fault =>
    rw [hstart] at hany
    cases hany
  | ok d =>
    rw [hstart] at hany
    obtain ⟨hnew, htold⟩ := Bool.and_eq_true_iff.mp hany
    obtain ⟨hpaced, hruns⟩ := hpaces _ d (hstarts _ _ d hstart)
    obtain ⟨trace, t, hexecutes, times, hjournal, hnotes⟩ :=
      hruns mixedRounds .duringRequest trivial
    rw [of_decide_eq_true hnew, of_decide_eq_true htold, List.nil_append] at hjournal
    refine ⟨hread, hvalid, d, trace, _, rfl, hexecutes, ?_, hpaced _ _ _ hexecutes⟩
    rw [DaemonAttempt.ofTrace, hnotes, ← hjournal]
    simp

end Daemon
end ForwardedIp
