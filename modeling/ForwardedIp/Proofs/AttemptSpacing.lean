import Mathlib.Data.List.Chain
import ForwardedIp.Proofs.EntityTags
import ForwardedIp.Proofs.LoopHistory
/-!
# Attempts start as they are due

An attempt, which is a request with the cycle that may follow, starts as soon as the delay after the
attempt before it has passed, neither earlier nor later. How long that delay is depends on whether
that attempt failed and on nothing else.
-/
namespace ForwardedIp

namespace DaemonAttempt

/-- The next request is due some time after an attempt has ended. -/
def Due (lapse : Bool → Nat) (a : DaemonAttempt) (due : ℝ) : Prop :=
  ∃ finish failed, a.ended = some (finish, failed) ∧ a.start ≤ finish ∧ due = finish + lapse failed

/-- Attempts follow each other as they are due. -/
def Spaced (lapse : Bool → Nat) (as : List DaemonAttempt) : Prop :=
  as.IsChain fun later earlier => earlier.Due lapse later.start

variable {lapse : Bool → Nat} {a : DaemonAttempt} {as : List DaemonAttempt}

theorem Spaced.cons (h : Spaced lapse as) (hdue : ∀ b ∈ as.head?, b.Due lapse a.start) :
    Spaced lapse (a :: as) := List.isChain_cons.mpr ⟨hdue, h⟩

/-- An attempt that ends stays where it is. -/
theorem Spaced.ended (h : Spaced lapse (a :: as)) (ended : Option (ℝ × Bool)) :
    Spaced lapse ({ a with ended } :: as) := List.isChain_cons.mpr (List.isChain_cons.mp h)

end DaemonAttempt

/-- The seconds from the end of an attempt to the next request. -/
def Daemon.lapse {N : Type} (d : Daemon N) (failed : Bool) : Nat :=
  min (if failed then d.retryDelaySecs else if d.source.waits then 0 else d.pollIntervalSecs)
    Daemon.longestDelay

theorem Daemon.lapse_congr {N : Type} {d d' : Daemon N}
    (hretry : d'.retryDelaySecs = d.retryDelaySecs) (hwaits : d'.source.waits = d.source.waits)
    (hpoll : d'.pollIntervalSecs = d.pollIntervalSecs) :
    d'.lapse = d.lapse := by
  funext failed
  rw [lapse, hretry, hwaits, hpoll, ← lapse]

theorem Daemon.refresh_lapse {N : Type} (d : Daemon N) : d.refresh.lapse = d.lapse := by
  obtain ⟨manager, hrefresh⟩ := d.refresh_cases
  rw [hrefresh]
  exact Daemon.lapse_congr rfl rfl rfl

namespace DaemonLoop
variable {N : Type} [Site N] {l l' : DaemonLoop N} {x : Occurrence N}

/-- How long the pauses are never changes. -/
theorem Moves.lapse_eq (h : Moves l x l') : l'.daemon.lapse = l.daemon.lapse := by
  cases h with
  | loaded d signalled => exact d.refresh_lapse
  | @delivered d signalled since request reply snapshot source hreply =>
    have hwaits := d.source.receive_waits reply
    rw [hreply] at hwaits
    exact Daemon.lapse_congr rfl hwaits rfl
  | @missed d signalled since request reply fault source hreply =>
    have hwaits := d.source.receive_waits reply
    rw [hreply] at hwaits
    exact Daemon.lapse_congr rfl hwaits rfl
  | _ => rfl

/-- What leaves a loop where it is begins and ends no attempt. -/
theorem Moves.of_stays (h : Moves l x l') (hx : x.stays = true) :
    l'.stage = l.stage ∧ ∀ as t, DaemonAttempt.note as t x = as := by
  cases h with
  | outside d stage signalled change => exact ⟨rfl, fun _ _ => rfl⟩
  | elapsed d stage signalled secs => exact ⟨rfl, fun _ _ => rfl⟩
  | signalled d stage signalled => exact ⟨rfl, fun _ _ => rfl⟩
  | _ => cases hx

end DaemonLoop

namespace TimedLoop
variable {N : Type} [Site N]

/-- Where a loop stands, the attempts so far and the present moment fit together. -/
def Expects (lapse : Bool → Nat) (as : List DaemonAttempt) (l : TimedLoop N) : Prop :=
  match l.loop.stage with
  | .top | .ready => l.now = l.since ∧ ∀ a ∈ as.head?, a.Due lapse l.since
  | .requesting _ _ | .cycling _ => ∃ a rest, as = a :: rest ∧ a.ended = none ∧ a.start ≤ l.now
  | .resting secs => l.since ≤ l.now ∧ l.now ≤ l.since + (min secs Daemon.longestDelay : ℕ) ∧
      ∃ a rest, as = a :: rest ∧ a.Due lapse (l.since + (min secs Daemon.longestDelay : ℕ))
  | .stopping | .stopped _ => True

structure Paced (lapse : Bool → Nat) (as : List DaemonAttempt) (l : TimedLoop N) : Prop where
  lapse_eq : l.loop.daemon.lapse = lapse
  spaced : DaemonAttempt.Spaced lapse as
  expects : l.Expects lapse as

namespace Paced
variable {lapse : Bool → Nat} {as : List DaemonAttempt} {l l' : TimedLoop N} {t : ℝ}
  {x : Occurrence N}

omit [Site N] in
theorem enter (d : Daemon N) (t₀ : ℝ) : Paced d.lapse [] ⟨d.enter, t₀, t₀⟩ where
  lapse_eq := rfl
  spaced := List.isChain_nil
  expects := ⟨rfl, by simp⟩

/-- What leaves a loop where it is leaves the attempts as they were. -/
theorem expects_of_stays (h : l.Expects lapse as) (hmove : Moves l t x l') (hx : x.stays = true) :
    l'.Expects lapse as := by
  obtain ⟨⟨d, stage, signalled⟩, since, now⟩ := l
  obtain ⟨⟨d', stage', signalled'⟩, since', now'⟩ := l'
  obtain ⟨hloop, hlater, hpunctual, -, hsince, hnow⟩ := hmove
  obtain ⟨rfl, -⟩ : stage' = stage ∧ _ := hloop.of_stays hx
  rw [if_pos hx] at hsince
  obtain rfl : since' = since := hsince
  obtain rfl : now' = t := hnow
  cases stage' with
  | top => exact ⟨le_antisymm (by simpa using hpunctual 0 rfl) (h.1 ▸ hlater), h.2⟩
  | ready => exact ⟨le_antisymm (by simpa using hpunctual 0 rfl) (h.1 ▸ hlater), h.2⟩
  | requesting s request =>
    obtain ⟨a, rest, has, hended, hstart⟩ := h
    exact ⟨a, rest, has, hended, hstart.trans hlater⟩
  | cycling snapshot =>
    obtain ⟨a, rest, has, hended, hstart⟩ := h
    exact ⟨a, rest, has, hended, hstart.trans hlater⟩
  | resting secs =>
    obtain ⟨hsince, -, hdue⟩ := h
    exact ⟨hsince.trans hlater, hpunctual _ rfl, hdue⟩
  | stopping => exact trivial
  | stopped result => exact trivial

omit [Site N] in
/-- An attempt that ends is followed by the pause that goes with how it ended. -/
theorem of_ended {a : DaemonAttempt} {rest : List DaemonAttempt} {failed : Bool} {secs : Nat}
    (hspaced : DaemonAttempt.Spaced lapse (a :: rest)) (hstart : a.start ≤ t)
    (hsecs : lapse failed = min secs Daemon.longestDelay) (d : Daemon N) (signalled : Bool) :
    DaemonAttempt.Spaced lapse ({ a with ended := some (t, failed) } :: rest) ∧
      Expects lapse ({ a with ended := some (t, failed) } :: rest)
        ⟨⟨d, .resting secs, signalled⟩, t, t⟩ := by
  refine ⟨hspaced.ended _, le_rfl, by simp, _, rest, rfl, t, failed, rfl, hstart, ?_⟩
  rw [hsecs]

/-- What happens at a moment begins an attempt as it is due, or ends one, or neither. -/
theorem of_leaves (hspaced : DaemonAttempt.Spaced lapse as) (hlapse : l.loop.daemon.lapse = lapse)
    (hexpects : l.Expects lapse as) (hmove : Moves l t x l') (hx : x.stays = false) :
    DaemonAttempt.Spaced lapse (DaemonAttempt.note as t x) ∧
      l'.Expects lapse (DaemonAttempt.note as t x) := by
  obtain ⟨loop, since, now⟩ := l
  obtain ⟨loop', since', now'⟩ := l'
  obtain ⟨hloop, hlater, hpunctual, hrested, hsince, hnow⟩ := hmove
  rw [hx, if_neg Bool.false_ne_true] at hsince
  obtain rfl : since' = t := hsince
  obtain rfl : now' = since' := hnow
  cases hloop with
  | outside d stage signalled change => cases hx
  | elapsed d stage signalled secs => cases hx
  | signalled d stage signalled => cases hx
  | loaded d signalled =>
    obtain ⟨hpresent, hdue⟩ : now = since ∧ _ := hexpects
    obtain rfl : now' = since := le_antisymm (by simpa using hpunctual 0 rfl) (hpresent ▸ hlater)
    exact ⟨hspaced, rfl, hdue⟩
  | sent d signalled =>
    obtain ⟨hpresent, hdue⟩ : now = since ∧ _ := hexpects
    obtain rfl : now' = since := le_antisymm (by simpa using hpunctual 0 rfl) (hpresent ▸ hlater)
    exact ⟨hspaced.cons hdue, _, as, rfl, rfl, le_rfl⟩
  | delivered d signalled s request hreply =>
    obtain ⟨a, rest, rfl, hended, hstart⟩ := hexpects
    exact ⟨hspaced, a, rest, rfl, hended, hstart.trans hlater⟩
  | missed d signalled s request hreply =>
    obtain ⟨a, rest, rfl, -, hstart⟩ := hexpects
    exact of_ended hspaced (hstart.trans hlater) (congrFun hlapse true).symm _ _
  | @cycled d signalled snapshot outcome manager site hcycle =>
    obtain ⟨a, rest, rfl, -, hstart⟩ := hexpects
    cases outcome with
    | ok outcome => exact of_ended hspaced (hstart.trans hlater) (congrFun hlapse false).symm _ _
    | error fault => exact of_ended hspaced (hstart.trans hlater) (congrFun hlapse true).symm _ _
  | rested d signalled secs =>
    obtain ⟨-, -, a, rest, rfl, hdue⟩ := hexpects
    obtain rfl : now' = since + (min secs Daemon.longestDelay : ℕ) :=
      le_antisymm (hpunctual _ rfl) (hrested rfl _ rfl)
    refine ⟨hspaced, rfl, ?_⟩
    rintro b hb
    obtain rfl := Option.some.inj hb
    exact hdue
  | tookReady d => exact ⟨hspaced, trivial⟩
  | tookRequesting d s request => exact ⟨hspaced, trivial⟩
  | tookResting d hsecs => exact ⟨hspaced, trivial⟩
  | flushed d signalled hflush => exact ⟨hspaced, trivial⟩

theorem move (h : Paced lapse as l) (hmove : Moves l t x l') :
    Paced lapse (DaemonAttempt.note as t x) l' := by
  have hlapse : l'.loop.daemon.lapse = lapse := hmove.move.lapse_eq.trans h.lapse_eq
  cases hx : x.stays with
  | true =>
    rw [(hmove.move.of_stays hx).2]
    exact ⟨hlapse, h.spaced, expects_of_stays h.expects hmove hx⟩
  | false =>
    obtain ⟨hspaced, hexpects⟩ := of_leaves h.spaced h.lapse_eq h.expects hmove hx
    exact ⟨hlapse, hspaced, hexpects⟩

theorem executes {start : TimedLoop N} {trace : List (ℝ × Occurrence N)}
    (h : Paced lapse [] start) (hexecutes : start.Executes trace l) :
    Paced lapse (DaemonAttempt.ofTrace trace) l := by
  induction hexecutes with
  | nil => exact h
  | @snoc past l l' t x earlier last ih =>
    rw [DaemonAttempt.ofTrace_snoc]
    exact ih.move last

variable {a : DaemonAttempt} {due : ℝ}

omit [Site N] in
/-- When the next request is due is known from how an attempt ended. -/
theorem due_of_ended {finish : ℝ} {failed : Bool} (hended : a.ended = some (finish, failed))
    (hdue : a.Due lapse due) : due = finish + lapse failed := by
  obtain ⟨finish', failed', hended', -, rfl⟩ := hdue
  rw [hended] at hended'
  cases hended'
  rfl

/-- After an attempt the next request is sent when it is due, and no moment later, unless the loop
takes the signal before. -/
theorem goes_on (h : Paced lapse (a :: as) l) {finish : ℝ} {failed : Bool}
    (hended : a.ended = some (finish, failed)) (htaken : l.loop.stage.taken = false) :
    l.now ≤ finish + lapse failed ∧ ∃ more l', l.Executes more l' ∧
      DaemonAttempt.noteAll (a :: as) more = ⟨finish + lapse failed, none⟩ :: a :: as := by
  obtain ⟨⟨d, stage, signalled⟩, since, now⟩ := l
  obtain ⟨-, -, hexpects⟩ := h
  cases stage with
  | top =>
    obtain ⟨rfl, hsince⟩ : now = since ∧ _ := hexpects
    obtain rfl := due_of_ended hended (hsince a rfl)
    obtain ⟨more, hmore, hnotes, -⟩ := asks d signalled (finish + lapse failed)
    exact ⟨le_rfl, more, _, hmore, hnotes _⟩
  | ready =>
    obtain ⟨rfl, hsince⟩ : now = since ∧ _ := hexpects
    obtain rfl := due_of_ended hended (hsince a rfl)
    have hsent := Moves.at_once (.sent d signalled) (finish + lapse failed) rfl (fun _ => nofun)
    exact ⟨le_rfl, _, _, .single hsent, rfl⟩
  | requesting s request =>
    obtain ⟨b, rest, heq, hopen, -⟩ := hexpects
    cases heq
    rw [hended] at hopen
    cases hopen
  | cycling snapshot =>
    obtain ⟨b, rest, heq, hopen, -⟩ := hexpects
    cases heq
    rw [hended] at hopen
    cases hopen
  | resting secs =>
    obtain ⟨-, hnow, b, rest, heq, hrest⟩ := hexpects
    cases heq
    rw [← due_of_ended hended hrest]
    obtain ⟨more, hmore, hnotes, -⟩ := asks (d.delay secs) signalled _
    exact ⟨hnow, _, _, (Executes.single (.resting d signalled secs hnow)).append hmore, hnotes _⟩
  | stopping => cases htaken
  | stopped result => cases htaken

end Paced
end TimedLoop
end ForwardedIp
