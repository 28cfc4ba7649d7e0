import ForwardedIp.Proofs.CleanVisits
import ForwardedIp.Proofs.Skipping
/-!
# Failures wait for a clean pass

A pass leaves nothing to be tried again only if it completed and nothing that it asked for failed.
Cycles that make no pass keep what is pending, so after a failure every cycle makes a pass unless
the manager is disabled, until a pass is flawless.
-/
namespace ForwardedIp

/-- Whether a request failed in a way that has to be tried again. A missing record is no failure. -/
def Call.isMishap : Call → Bool
  | .readRecord _ (.error fault) => !fault.isNotFound
  | c => c.failed

/-- Whether a request was to list the interfaces, as every pass does first. -/
def Call.isListing : Call → Bool
  | .interfaces _ => true
  | _ => false

/-- Requests were made, and none of them was a mishap. -/
def Observed.Smooth {N : Type} (o o' : Observed N) : Prop :=
  ∃ calls, o'.calls = o.calls ++ calls ∧ ∀ c ∈ calls, c.isMishap = false

namespace Observed.Smooth
variable {N : Type} {o o₁ o' : Observed N}

theorem refl (o : Observed N) : o.Smooth o := ⟨[], by simp, by simp⟩

theorem trans (h : o.Smooth o₁) (h' : o₁.Smooth o') : o.Smooth o' := by
  obtain ⟨calls, heq, hcalls⟩ := h
  obtain ⟨calls', heq', hcalls'⟩ := h'
  refine ⟨calls ++ calls', by rw [heq', heq, List.append_assoc], ?_⟩
  intro c hc
  rcases List.mem_append.mp hc with hc | hc
  · exact hcalls c hc
  · exact hcalls' c hc

end Observed.Smooth

namespace Visit
variable {N : Type} [Site N] {live : List LiveInterface} {d : DeclaredInterface}
  {ds : List DeclaredInterface} {o o' : Observed N} {w : Work} {v : Visit} {visits : List Visit}

theorem isNotFound_of_recalled {fault : Fault} {recorded : List String}
    (h : recalled (.error fault) = .ok recorded) : fault.isNotFound = true := by
  simp only [recalled] at h
  split at h
  · assumption
  · cases h

theorem Reconciliation.read_no_mishap (r : Reconciliation live d o w o') :
    (Call.readRecord w.mac.text r.answer).isMishap = false := by
  have hrecalled := r.recorded_eq
  cases hanswer : r.answer with
  | ok entries => rfl
  | error fault =>
    rw [hanswer] at hrecalled
    rw [Call.isMishap, isNotFound_of_recalled hrecalled, Bool.not_true]

theorem Reconciliation.smooth (r : Reconciliation live d o w o') (hclean : w.Clean) :
    o.Smooth o' := by
  refine ⟨r.calls, r.calls_eq, ?_⟩
  intro c hc
  simp only [Reconciliation.calls, List.mem_append, List.mem_cons, List.not_mem_nil, or_false,
    mem_filterMap_call?] at hc
  rcases hc with (((rfl | rfl) | ⟨a, ha, ip, -, rfl⟩) | ⟨a, ha, ip, -, rfl⟩) | rfl
  · rfl
  · exact r.read_no_mishap
  · exact (Call.bind_failed w.iface ip a).trans (hclean.binds a ha)
  · exact (Call.unbind_failed w.iface ip a).trans (hclean.unbinds a ha)
  · rw [hclean.saved]
    rfl

theorem Goes.smooth (g : Goes live d o v o') (hclean : v.Clean) : o.Smooth o' := by
  cases g with
  | unparseable hmac => exact .refl o
  | unmatched hmac hnone => exact .refl o
  | unreadable hmac hiface haddresses => exact hclean.elim
  | unrecorded hmac hiface haddresses hread hfault => exact hclean.elim
  | reconciled r => exact r.smooth hclean

theorem smooth_of_clean (h : (ds.mapM (Visit.run live)).run o = (visits, o'))
    (hclean : ∀ v ∈ visits, v.Clean) : o.Smooth o' := by
  induction ds generalizing o visits with
  | nil =>
    cases h
    exact .refl _
  | cons d ds ih =>
    rw [List.mapM_cons] at h
    cases hfirst : (Visit.run live d).run o with
    | mk v o₁ =>
    rw [run_bind hfirst] at h
    cases hrest : (ds.mapM (Visit.run live)).run o₁ with
    | mk rest o₂ =>
    rw [run_bind hrest] at h
    cases h
    obtain ⟨hv, hvisits⟩ := List.forall_mem_cons.mp hclean
    exact (Goes.smooth (goes hfirst) hv).trans (ih hrest hvisits)

end Visit

namespace Engine.Applies
variable {N : Type} [Site N] {e engine : Engine} {s : Snapshot} {o o' : Observed N}

/-- A pass asks for the interfaces, whatever comes of it. -/
theorem listing_mem {step : Step (Except Fault Report)} (h : Applies e s o step o') :
    ∃ answer, Call.interfaces answer ∈ o'.calls.drop o.calls.length := by
  cases h with
  | unlisted hlisted => exact ⟨_, Observed.unlisted_mem_calls hlisted⟩
  | @visited live visits o₁ _ hlisted hvisits =>
    have hchain := Passage.chain_ofVisits Passage.between_quiet live (e.declaration s) o₁
    rw [hvisits] at hchain
    obtain ⟨calls, heq, -⟩ := hchain.calls_eq
    refine ⟨.ok live, ?_⟩
    rw [heq, (Observed.noting_run hlisted).2, List.append_assoc, List.drop_left]
    exact List.mem_cons_self

/-- A pass that completes and leaves nothing to be tried again had no mishap. -/
theorem smooth {report : Report} {events : List Event}
    (h : Applies e s o ⟨.ok report, events, engine⟩ o') (hretry : engine.retryPending = false) :
    o.Smooth o' := by
  cases h with
  | visited hlisted hvisits =>
    have hclean := Report.hasFailures_ofVisits.mp hretry
    exact .trans ⟨_, (Observed.noting_run hlisted).2, by simp [Call.isMishap, Call.failed]⟩
      (Visit.smooth_of_clean hvisits hclean)

end Engine.Applies

namespace Turn
variable {N : Type} [Site N]

/-- What a turn answers, if it is a command. -/
def answer? (t : Turn N) : Option Answer :=
  match t.happening with
  | .command c => some (t.start.perform c).1
  | .outside _ => none

/-- Whether a turn attempts a pass. -/
def attempts (t : Turn N) : Bool := t.calls.any Call.isListing

/-- A turn makes a pass that completes, and nothing in it fails. -/
structure Flawless (t : Turn N) : Prop where
  completed : ∃ report, t.answer? = some (.outcome (.ok (.applied report)))
  smooth : ∀ c ∈ t.calls, c.isMishap = false

/-- The last one of some turns that attempts a pass. -/
def lastAttempt? (ts : List (Turn N)) : Option (Turn N) := ts.reverse.find? attempts

variable {ts : List (Turn N)} {t : Turn N}

theorem lastAttempt?_append_singleton :
    lastAttempt? (ts ++ [t]) = if t.attempts then some t else lastAttempt? ts := by
  rw [lastAttempt?, List.reverse_append, List.reverse_singleton, List.singleton_append,
    List.find?_cons]
  cases t.attempts <;> rfl

/-- After an attempt the last one is that one or came later. -/
theorem lastAttempt?_split (before since : List (Turn N)) (ht : t.attempts = true) :
    ∃ u, lastAttempt? (before ++ t :: since) = some u ∧
      (u = t ∨ u ∈ since ∧ u.attempts = true) := by
  have hreverse : (before ++ t :: since).reverse = since.reverse ++ t :: before.reverse := by simp
  rw [lastAttempt?, hreverse, List.find?_append]
  cases hfind : since.reverse.find? attempts with
  | none => exact ⟨t, by simp [ht], .inl rfl⟩
  | some u =>
    have hmem : u ∈ since := List.mem_reverse.mp (List.mem_of_find?_eq_some hfind)
    exact ⟨u, rfl, .inr ⟨hmem, List.find?_some hfind⟩⟩

/-- A turn that is a cycle. -/
def cycle (m : Managed N) (s : Snapshot) : Turn N := ⟨m, .command (.cycle s)⟩

variable {m : Managed N} {s : Snapshot} {step : Step (Except Fault CycleOutcome)} {o : Observed N}

theorem finish_cycle (h : (m.engine.cycle s).run m.site = (step, o)) :
    (cycle m s).finish = ⟨step.engine, o⟩ := by
  have hfinish : (cycle m s).finish =
      ⟨((m.engine.cycle s).run m.site).1.engine, ((m.engine.cycle s).run m.site).2⟩ := rfl
  rw [hfinish, h]

theorem answer?_cycle (h : (m.engine.cycle s).run m.site = (step, o)) :
    (cycle m s).answer? = some (.outcome step.answer) := by
  have hanswer : (cycle m s).answer? = some (.outcome ((m.engine.cycle s).run m.site).1.answer) :=
    rfl
  rw [hanswer, h]

theorem calls_cycle (h : (m.engine.cycle s).run m.site = (step, o)) :
    (cycle m s).calls = o.calls.drop m.site.calls.length := by
  rw [calls, finish_cycle h]
  rfl

theorem attempts_of_applies {e : Engine} {pass : Step (Except Fault Report)}
    (h : (m.engine.cycle s).run m.site = (step, o)) (hpass : Engine.Applies e s m.site pass o) :
    (cycle m s).attempts = true := by
  obtain ⟨answer, hmem⟩ := hpass.listing_mem
  rw [attempts, calls_cycle h]
  exact List.any_eq_true.mpr ⟨_, hmem, rfl⟩

theorem not_attempts_of_idle (h : (m.engine.cycle s).run m.site = (step, m.site)) :
    (cycle m s).attempts = false := by
  rw [attempts, calls_cycle h, List.drop_length]
  rfl

/-- A cycle that attempts no pass found the manager disabled, or nothing changed and nothing to be
tried again; it keeps what is pending. -/
theorem cycle_of_not_attempts (h : (cycle m s).attempts = false) :
    (cycle m s).finish.engine.retryPending = m.engine.retryPending ∧
      ((cycle m s).answer? = some (.outcome (.ok .disabled)) ∨
        (cycle m s).answer? = some (.outcome (.ok .unchanged)) ∧
          m.engine.retryPending = false) := by
  cases hcycle : (m.engine.cycle s).run m.site with
  | mk step o =>
  rw [finish_cycle hcycle, answer?_cycle hcycle]
  cases Engine.cycles hcycle with
  | disabled hgate => exact ⟨rfl, .inl rfl⟩
  | unchanged hgate hdue => exact ⟨rfl, .inr ⟨rfl, (Engine.of_not_due hdue).1⟩⟩
  | applied hgate hdue hpass =>
    rw [attempts_of_applies hcycle hpass] at h
    cases h
  | failed hgate hdue hpass =>
    rw [attempts_of_applies hcycle hpass] at h
    cases h

/-- A cycle that attempts a pass leaves nothing to be tried again only if it was flawless. -/
theorem flawless_of_not_pending (h : (cycle m s).attempts = true)
    (hretry : (cycle m s).finish.engine.retryPending = false) : (cycle m s).Flawless := by
  cases hcycle : (m.engine.cycle s).run m.site with
  | mk step o =>
  rw [finish_cycle hcycle] at hretry
  have hanswer := answer?_cycle hcycle
  cases Engine.cycles hcycle with
  | disabled hgate =>
    rw [not_attempts_of_idle hcycle] at h
    cases h
  | unchanged hgate hdue =>
    rw [not_attempts_of_idle hcycle] at h
    cases h
  | applied hgate hdue hpass =>
    obtain ⟨calls, heq, hsmooth⟩ := hpass.smooth hretry
    refine ⟨⟨_, hanswer⟩, ?_⟩
    rw [calls_cycle hcycle, heq, List.drop_left]
    exact hsmooth
  | failed hgate hdue hpass => cases hretry

end Turn

/-- Nothing is pending only if the last one of some turns that attempts a pass was flawless. -/
def Engine.Retrying {N : Type} [Site N] (e : Engine) (ts : List (Turn N)) : Prop :=
  e.retryPending = false → ∀ t, Turn.lastAttempt? ts = some t → t.Flawless

/-- Whether an answer says that the manager is disabled. -/
def Answer.isDisabled : Answer → Bool
  | .outcome (.ok .disabled) => true
  | _ => false

namespace Managed
open LastPass
variable {N : Type} [Site N] {m : Managed N} {ts : List (Turn N)}

theorem retrying_cycle (h : m.engine.Retrying ts) (s : Snapshot) :
    (Turn.cycle m s).finish.engine.Retrying (ts ++ [Turn.cycle m s]) := by
  intro hretry t ht
  rw [Turn.lastAttempt?_append_singleton] at ht
  cases hattempts : (Turn.cycle m s).attempts with
  | true =>
    rw [hattempts, if_pos rfl] at ht
    cases ht
    exact Turn.flawless_of_not_pending hattempts hretry
  | false =>
    rw [hattempts, if_neg Bool.false_ne_true] at ht
    rw [(Turn.cycle_of_not_attempts hattempts).1] at hretry
    exact h hretry t ht

/-- A turn that leaves the site's calls and what is pending alone. -/
theorem retrying_idle (h : m.engine.Retrying ts) {happening : Happening N}
    (hcalls : (m.step happening).site.calls = m.site.calls)
    (hpending : (m.step happening).engine.retryPending = m.engine.retryPending) :
    (m.step happening).engine.Retrying (ts ++ [⟨m, happening⟩]) := by
  intro hretry t ht
  have hattempts : (⟨m, happening⟩ : Turn N).attempts = false := by
    rw [Turn.attempts, Turn.calls, Turn.finish, hcalls, List.drop_length]
    rfl
  rw [Turn.lastAttempt?_append_singleton, hattempts, if_neg Bool.false_ne_true] at ht
  exact h (hpending ▸ hretry) t ht

theorem retrying_step (h : m.engine.Retrying ts) {happening : Happening N}
    (hscheduled : Scheduled [happening]) :
    (m.step happening).engine.Retrying (ts ++ [⟨m, happening⟩]) := by
  cases happening with
  | outside change => exact retrying_idle h rfl rfl
  | command c =>
    rcases hscheduled c List.mem_cons_self with ⟨s, rfl⟩ | ⟨overrides, rfl⟩
    · exact retrying_cycle h s
    · exact retrying_idle h rfl rfl

theorem retrying_run (h : m.engine.Retrying ts) {hs : List (Happening N)}
    (hscheduled : Scheduled hs) : (m.run hs).engine.Retrying (ts ++ m.turns hs) := by
  induction hs generalizing m ts with
  | nil =>
    rw [turns, List.append_nil]
    exact h
  | cons happening hs ih =>
    have hfirst : Scheduled [happening] := fun c hc =>
      hscheduled c (List.mem_cons.mpr (.inl (List.mem_singleton.mp hc)))
    have hrest : Scheduled hs := fun c hc => hscheduled c (List.mem_cons_of_mem _ hc)
    have hrun := ih (retrying_step h hfirst) hrest
    rw [List.append_assoc] at hrun
    exact hrun

/-- A cycle answers that nothing changed only if the most recent attempted pass of the run, if
there was one, was flawless. So after an attempted pass that was not, every cycle attempts a pass
unless the manager is disabled, until one is flawless. -/
theorem failures_pending (m : Managed N) (past : List (Happening N)) (s : Snapshot)
    (hscheduled : Scheduled past) :
    let next := Turn.cycle (m.run past) s
    (next.answer? = some (.outcome (.ok .unchanged)) →
      ∀ t, Turn.lastAttempt? (m.turns past) = some t → t.Flawless) ∧
    ∀ before t since, m.turns past = before ++ t :: since → t.attempts = true → ¬ t.Flawless →
      (∀ u ∈ since, u.attempts = true → ¬ u.Flawless) →
      next.answer? ≠ some (.outcome (.ok .disabled)) → next.attempts = true := by
  intro next
  have hstart : m.engine.Retrying ([] : List (Turn N)) := fun _ t ht => by cases ht
  have hretrying : (m.run past).engine.Retrying (m.turns past) := retrying_run hstart hscheduled
  refine ⟨fun hanswer => ?_, ?_⟩
  · have hdue := (perform_cycle_unchanged.mp (Option.some.inj hanswer)).2
    exact hretrying (Engine.of_not_due hdue).1
  · intro before t since hturns ht hflawed hsince henabled
    obtain ⟨u, hlast, hu⟩ := Turn.lastAttempt?_split before since ht
    have hflawed' : ¬ u.Flawless := by
      rcases hu with rfl | ⟨hmem, hattempts⟩
      · exact hflawed
      · exact hsince u hmem hattempts
    rw [← hturns] at hlast
    -- A cycle that attempts nothing has nothing pending, so the last attempt was flawless.
    by_contra hidle
    rcases (Turn.cycle_of_not_attempts (Bool.eq_false_iff.mpr hidle)).2 with
      hdisabled | ⟨-, hretry⟩
    · exact henabled hdisabled
    · exact hflawed' (hretrying hretry u hlast)

/-- A reconciler that has seen nothing, on a host that cannot bind 10.0.0.5. -/
def stranded : Managed (Machine MemoryHost MemoryLedger) where
  engine := .fresh {}
  site.site :=
    { (Machine.single "02:00:00:00:00:0a" [] []) with
      host.faults := { unbindable := [Machine.tenFive] } }

/-- The address is declared, and then the manager is disabled for a cycle. -/
def strandedRun : List (Happening (Machine MemoryHost MemoryLedger)) :=
  [.command (.cycle (flagged "false")), .command (.cycle (flagged "true"))]

theorem scheduled_strandedRun : Scheduled strandedRun := by
  intro c hc
  simp only [strandedRun, List.mem_cons, Happening.command.injEq, List.not_mem_nil,
    or_false] at hc
  rcases hc with rfl | rfl
  · exact .inl ⟨_, rfl⟩
  · exact .inl ⟨_, rfl⟩

/-- The address is tried again once the manager is enabled, though nothing changed. -/
theorem stranded_address_pending : Scheduled strandedRun ∧
    (Turn.cycle (stranded.run strandedRun) (flagged "false")).attempts = true := by
  obtain ⟨-, hpending⟩ := failures_pending stranded strandedRun (flagged "false")
    scheduled_strandedRun
  let first := Turn.cycle stranded (flagged "false")
  let second := Turn.cycle first.finish (flagged "true")
  have hattempts : first.attempts = true := by decide +kernel
  have hflawed : ¬ first.Flawless := by
    intro hflawless
    have hmishap : first.calls.any Call.isMishap = true := by decide +kernel
    obtain ⟨c, hc, hfailed⟩ := List.any_eq_true.mp hmishap
    rw [hflawless.smooth c hc] at hfailed
    cases hfailed
  have hidle : second.attempts = false := by decide +kernel
  refine ⟨scheduled_strandedRun, hpending [] first [second] rfl hattempts hflawed ?_ ?_⟩
  · intro u hu hu'
    cases List.mem_singleton.mp hu
    rw [hidle] at hu'
    cases hu'
  · intro hanswer
    have henabled : (Turn.cycle (stranded.run strandedRun) (flagged "false")).answer?.map
        Answer.isDisabled = some false := by decide +kernel
    rw [hanswer] at henabled
    cases henabled

end Managed
end ForwardedIp
