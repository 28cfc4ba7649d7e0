import ForwardedIp.Proofs.Runs
/-!
# When skipping is justified

A cycle that finds nothing changed makes no pass. That is justified if what it would process is
what the most recent attempted pass processed. A cycle that finds the manager disabled makes no
pass either, but its snapshot is kept for the next comparison, so a declaration that changes in
such a cycle is never processed: skipping is justified exactly if the last of these snapshots
declares the same as that pass.
-/
namespace ForwardedIp

namespace Exclusion

theorem apply_congr {s s' : Settings} (haddresses : s.failoverAddresses = s'.failoverAddresses)
    (henabled : s.failoverEnabled = s'.failoverEnabled) (interfaces : List DeclaredInterface) :
    apply s interfaces = apply s' interfaces := by
  have hkeep : keep s = keep s' := by
    funext ips
    simp only [keep, ofSettings, haddresses, henabled]
  rw [apply, apply, hkeep]

end Exclusion

/-- The declaration depends on the local overrides and on nothing else that an engine remembers. -/
theorem Engine.declaration_congr {e e' : Engine} {s : Snapshot} (h : e.overrides = e'.overrides) :
    e.declaration s = e'.declaration s :=
  Exclusion.apply_congr (congrArg (Settings.resolveAddresses · s) h)
    (congrArg (Settings.resolveEnabled · s) h) s.interfaces

/-- What matters about the past of a run: what the most recent attempted pass processed, under
which settings, and the snapshot of the latest cycle since then that found the manager disabled. -/
structure LastPass where
  processed : List DeclaredInterface := []
  settings : Settings := {}
  refused : Option Snapshot := none

variable {N : Type}

/-- The snapshot of a turn that is a cycle of a disabled manager. -/
def Turn.refused? (t : Turn N) : Option Snapshot :=
  match t.happening with
  | .command (.cycle s) => if (t.start.engine.checkDisabled s).answer then some s else none
  | _ => none

namespace LastPass

/-- What matters after one more turn. -/
def after (l : LastPass) (t : Turn N) : LastPass :=
  match t.pass?, t.refused? with
  | some (e, s), _ => ⟨e.declaration s, e.settings s, none⟩
  | none, some s => { l with refused := some s }
  | none, none => l

def ofTurns (ts : List (Turn N)) : LastPass := ts.foldl after {}

/-- An engine remembers what matters about the past: the failover settings of the most recent
attempted pass, and a snapshot that declares what that pass did or what was refused since. -/
structure Remembered (l : LastPass) (e : Engine) : Prop where
  addresses : e.memo.failoverAddresses = l.settings.failoverAddresses
  enabled : e.memo.failoverEnabled = l.settings.failoverEnabled
  declared : ∃ interfaces, l.processed = Exclusion.apply l.settings interfaces ∧
    TransitionMemo.declared e.previous = (l.refused.map Snapshot.interfaces).getD interfaces

variable {l : LastPass} {e : Engine} {s : Snapshot} {n n' : N}

theorem remembered_fresh (overrides : LocalConfig) : Remembered {} (Engine.fresh overrides) where
  addresses := rfl
  enabled := rfl
  declared := ⟨[], rfl, rfl⟩

/-- What a cycle finds unchanged agrees with what is remembered. -/
theorem Remembered.of_not_due (h : l.Remembered e) (hdue : e.due s = false) :
    TransitionMemo.declared e.previous = s.interfaces ∧
      (e.settings s).failoverAddresses = l.settings.failoverAddresses ∧
        (e.settings s).failoverEnabled = l.settings.failoverEnabled := by
  obtain ⟨-, hdeclared, haddresses, henabled⟩ := Engine.of_not_due hdue
  exact ⟨hdeclared, haddresses.trans h.addresses, henabled.trans h.enabled⟩

theorem Remembered.refuse (h : l.Remembered e) :
    ({ l with refused := some s } : LastPass).Remembered
      { (e.checkDisabled s).engine with previous := some s } where
  addresses := h.addresses
  enabled := h.enabled
  declared := by
    obtain ⟨interfaces, hprocessed, -⟩ := h.declared
    exact ⟨interfaces, hprocessed, rfl⟩

theorem Remembered.skip (h : l.Remembered e) (hdue : e.due s = false) :
    l.Remembered { (e.changeOf s).engine with previous := some s } := by
  obtain ⟨hdeclared, haddresses, henabled⟩ := h.of_not_due hdue
  obtain ⟨interfaces, hprocessed, hprevious⟩ := h.declared
  exact ⟨haddresses, henabled, interfaces, hprocessed, hdeclared.symm.trans hprevious⟩

/-- An attempted pass is remembered, whatever comes of it. -/
theorem remembered_pass {engine : Engine} (hmemo : engine.memo = (e.passEngine s).memo)
    (hprevious : engine.previous = some s) :
    (⟨(e.passEngine s).declaration s, (e.passEngine s).settings s, none⟩ :
      LastPass).Remembered engine where
  addresses := by rw [hmemo]; rfl
  enabled := by rw [hmemo]; rfl
  declared := ⟨s.interfaces, rfl, by rw [hprevious]; rfl⟩

theorem after_cycle_of_due {m : Managed N} (hgate : (m.engine.checkDisabled s).answer = false)
    (hdue : m.engine.due s = true) : l.after (⟨m, .command (.cycle s)⟩ : Turn N) =
      ⟨(m.engine.passEngine s).declaration s, (m.engine.passEngine s).settings s, none⟩ := by
  simp only [after, Turn.pass?, Engine.pass?, hgate, hdue, Bool.false_eq_true, if_false, if_true]

variable [Site N]

theorem Remembered.cycle {step : Step (Except Fault CycleOutcome)} {m : Managed N}
    {o o' : Observed N} (h : l.Remembered m.engine)
    (hcycle : Engine.Cycles m.engine s o step o') :
    (l.after (⟨m, .command (.cycle s)⟩ : Turn N)).Remembered step.engine := by
  cases hcycle with
  | disabled hgate =>
    simp only [after, Turn.pass?, Turn.refused?, Engine.pass?, hgate, if_true]
    exact h.refuse
  | unchanged hgate hdue =>
    simp only [after, Turn.pass?, Turn.refused?, Engine.pass?, hgate, hdue, Bool.false_eq_true,
      if_false]
    exact h.skip hdue
  | applied hgate hdue hpass =>
    rw [after_cycle_of_due hgate hdue]
    exact remembered_pass hpass.engine_eq.1 rfl
  | failed hgate hdue hpass =>
    rw [after_cycle_of_due hgate hdue]
    exact remembered_pass hpass.engine_eq.1 rfl

/-- A run of cycles and of changes to the local overrides, with any outside changes. -/
def Scheduled (hs : List (Happening N)) : Prop :=
  ∀ c, .command c ∈ hs → (∃ s, c = .cycle s) ∨ ∃ overrides, c = .setOverrides overrides

theorem Remembered.step {m : Managed N} (h : l.Remembered m.engine) {happening : Happening N}
    (hscheduled : Scheduled [happening]) :
    (l.after (⟨m, happening⟩ : Turn N)).Remembered (m.step happening).engine := by
  cases happening with
  | outside change => exact h
  | command c =>
    rcases hscheduled c List.mem_cons_self with ⟨s, rfl⟩ | ⟨overrides, rfl⟩
    · exact h.cycle (Engine.cycles rfl)
    · exact ⟨h.addresses, h.enabled, h.declared⟩

theorem Remembered.run {m : Managed N} (h : l.Remembered m.engine) {hs : List (Happening N)}
    (hscheduled : Scheduled hs) :
    ((m.turns hs).foldl after l).Remembered (m.run hs).engine := by
  induction hs generalizing m l with
  | nil => exact h
  | cons happening hs ih =>
    have hfirst : Scheduled [happening] := fun c hc =>
      hscheduled c (List.mem_cons.mpr (.inl (List.mem_singleton.mp hc)))
    have hrest : Scheduled hs := fun c hc => hscheduled c (List.mem_cons_of_mem _ hc)
    exact ih (h.step hfirst) hrest

end LastPass

namespace Managed
open LastPass
variable [Site N]

/-- A cycle answers that nothing changed if the manager is not disabled and no pass is due. -/
theorem perform_cycle_unchanged {m : Managed N} {s : Snapshot} :
    (m.perform (.cycle s)).1 = .outcome (.ok .unchanged) ↔
      (m.engine.checkDisabled s).answer = false ∧ m.engine.due s = false := by
  have hperform : (m.perform (.cycle s)).1 =
      .outcome ((m.engine.cycle s).run m.site).1.answer := rfl
  rw [hperform]
  cases hcycle : (m.engine.cycle s).run m.site with
  | mk step o =>
  cases Engine.cycles hcycle with
  | disabled hgate => simp [hgate]
  | unchanged hgate hdue => simp [hgate, hdue]
  | applied hgate hdue hpass => simp [hdue]
  | failed hgate hdue hpass => simp [hdue]

/-- A cycle that answers that nothing changed would process what the most recent attempted pass
processed, exactly if the latest cycle since then that found the manager disabled, if there was
one, declared the same under the failover settings of that pass. -/
theorem unchanged_iff (overrides : LocalConfig) (o : Observed N) (past : List (Happening N))
    (s : Snapshot) (hscheduled : Scheduled past)
    (hunchanged : ((run ⟨Engine.fresh overrides, o⟩ past).perform (.cycle s)).1 =
      .outcome (.ok .unchanged)) :
    let last := ofTurns (turns ⟨Engine.fresh overrides, o⟩ past)
    (run ⟨Engine.fresh overrides, o⟩ past).engine.declaration s = last.processed ↔
      ∀ q, last.refused = some q → Exclusion.apply last.settings q.interfaces = last.processed := by
  intro last
  have hremembered : last.Remembered (run ⟨Engine.fresh overrides, o⟩ past).engine :=
    (remembered_fresh overrides).run hscheduled
  obtain ⟨hdeclared, haddresses, henabled⟩ :=
    hremembered.of_not_due (perform_cycle_unchanged.mp hunchanged).2
  obtain ⟨interfaces, hprocessed, hprevious⟩ := hremembered.declared
  have hdeclaration : (run ⟨Engine.fresh overrides, o⟩ past).engine.declaration s =
      Exclusion.apply last.settings s.interfaces :=
    Exclusion.apply_congr haddresses henabled s.interfaces
  rw [hdeclared] at hprevious
  rw [hdeclaration, hprevious]
  cases hrefused : last.refused with
  | none => simp [hprocessed]
  | some q => simp

/-- One forwarded address, with the flag that disables the manager. -/
def flagged (disable : String) : Snapshot where
  instanceAttributes := { disableManager := some disable }
  interfaces := [⟨"02:00:00:00:00:0a", ["10.0.0.5"]⟩]

/-- A machine with the interface of that address. -/
def flaggedSite : Observed (Machine MemoryHost MemoryLedger) where
  site := .single "02:00:00:00:00:0a" [] []

def flaggedRun (disable : String) : List (Happening (Machine MemoryHost MemoryLedger)) :=
  [.command (.cycle (flagged disable))]

theorem scheduled_flaggedRun (disable : String) : Scheduled (flaggedRun disable) := by
  intro c hc
  cases List.mem_singleton.mp hc
  exact .inl ⟨_, rfl⟩

theorem repeated_declaration_processed :
    ((run ⟨Engine.fresh {}, flaggedSite⟩ (flaggedRun "false")).perform
      (.cycle (flagged "false"))).1 = .outcome (.ok .unchanged) ∧
    (run ⟨Engine.fresh {}, flaggedSite⟩ (flaggedRun "false")).engine.declaration (flagged "false") =
      (ofTurns (turns ⟨Engine.fresh {}, flaggedSite⟩ (flaggedRun "false"))).processed := by
  have hunchanged : ((run ⟨Engine.fresh {}, flaggedSite⟩ (flaggedRun "false")).perform
      (.cycle (flagged "false"))).1 = .outcome (.ok .unchanged) :=
    perform_cycle_unchanged.mpr (by decide +kernel)
  have hiff := unchanged_iff {} flaggedSite (flaggedRun "false") (flagged "false")
    (scheduled_flaggedRun "false") hunchanged
  refine ⟨hunchanged, hiff.mpr ?_⟩
  intro q hq
  have hnone : (ofTurns (turns ⟨Engine.fresh {}, flaggedSite⟩ (flaggedRun "false"))).refused =
    none := by decide +kernel
  rw [hnone] at hq
  cases hq

/-- An address that is declared while the manager is disabled is lost when it is enabled. -/
theorem change_lost_while_disabled : ¬ ∀ (overrides : LocalConfig)
    (o : Observed (Machine MemoryHost MemoryLedger)) (past : List (Happening _)) (s : Snapshot),
    Scheduled past → ((run ⟨Engine.fresh overrides, o⟩ past).perform (.cycle s)).1 =
      .outcome (.ok .unchanged) →
    (run ⟨Engine.fresh overrides, o⟩ past).engine.declaration s =
      (ofTurns (turns ⟨Engine.fresh overrides, o⟩ past)).processed := by
  intro hall
  have hlost := hall {} flaggedSite (flaggedRun "true") (flagged "false")
    (scheduled_flaggedRun "true") (perform_cycle_unchanged.mpr (by decide +kernel))
  revert hlost
  decide +kernel

end Managed
end ForwardedIp
