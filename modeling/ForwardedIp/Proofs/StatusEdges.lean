import ForwardedIp.Proofs.Skipping
import ForwardedIp.Proofs.ToldEvents
import Mathlib.Data.List.Chain
/-!
# The flag that disables the manager is told when it changes

The manager tells whether it is disabled when that changes, and at no other time. So over a run
these events alternate: the first tells that the manager is disabled, and the last tells what is
remembered. A command that finds the manager disabled asks nothing of the site, and remembers
nothing else of it but its snapshot.
-/
namespace ForwardedIp

namespace Event

/-- What a status event tells. -/
def status? : Event → Option Bool
  | .managerStatus _ disabled => some disabled
  | _ => none

theorem status?_of_isOfInterface {e : Event} (h : e.isOfInterface = true) : e.status? = none := by
  cases e <;> first | rfl | cases h

end Event

/-- Flags that alternate and begin with `true`, the last of which is remembered. Without flags
`false` is remembered. -/
structure Alternates (flags : List Bool) (remembered : Bool) : Prop where
  head_eq : ∀ flag ∈ flags.head?, flag = true
  isChain : flags.IsChain (· ≠ ·)
  remembered_eq : remembered = flags.getLast?.getD false

namespace Alternates
variable {flags : List Bool} {remembered : Bool}

theorem nil : Alternates [] false where
  head_eq flag hflag := by cases hflag
  isChain := .nil
  remembered_eq := rfl

/-- Another flag than the one that is remembered may follow. -/
theorem snoc (h : Alternates flags remembered) {flag : Bool} (hflag : flag ≠ remembered) :
    Alternates (flags ++ [flag]) flag where
  head_eq := by
    cases flags with
    | nil =>
      have hremembered : remembered = false := h.remembered_eq
      intro first hfirst
      cases hfirst
      rw [hremembered] at hflag
      exact (Bool.not_eq_false flag).mp hflag
    | cons first rest => exact h.head_eq
  isChain := by
    refine List.isChain_append.mpr ⟨h.isChain, .singleton flag, fun last hlast next hnext => ?_⟩
    have hremembered := h.remembered_eq
    rw [Option.mem_def.mp hlast] at hremembered
    cases hnext
    exact fun heq => hflag (heq.symm.trans hremembered.symm)
  remembered_eq := by rw [List.getLast?_concat, Option.getD_some]

end Alternates

namespace Engine
variable {N : Type} [Site N] {e : Engine} {c : Command} {s : Snapshot}

/-- What is remembered of the flag that disables the manager once a command is carried out. -/
def disabledAfter (e : Engine) : Command → Bool
  | .cycle s | .reconcile s | .isDisabled s => (e.settings s).disabled
  | .apply _ | .hasChanged _ _ | .setOverrides _ => e.memo.disabled

theorem disabled_perform (e : Engine) (c : Command) (n : N) :
    ((e.perform c).run n).1.engine.memo.disabled = e.disabledAfter c := by
  cases c with
  | apply s => exact congrArg (·.disabled) (applies (e := e) (s := s) (n := n) rfl).engine_eq.1
  | reconcile s =>
    show ((e.reconcile s).run n).1.engine.memo.disabled = _
    cases hreconcile : (e.reconcile s).run n with
    | mk step n' =>
    cases reconciles hreconcile with
    | disabled hgate => rfl
    | passed hgate hpass => exact congrArg (·.disabled) hpass.engine_eq.1
  | cycle s =>
    show ((e.cycle s).run n).1.engine.memo.disabled = _
    cases hcycle : (e.cycle s).run n with
    | mk step n' =>
    cases cycles hcycle with
    | disabled hgate => rfl
    | unchanged hgate hdue => rfl
    | applied hgate hdue hpass => exact congrArg (·.disabled) hpass.engine_eq.1
    | failed hgate hdue hpass => exact congrArg (·.disabled) hpass.engine_eq.1
  | isDisabled s => rfl
  | hasChanged previous current => rfl
  | setOverrides overrides => rfl

theorem filterMap_statusEvents (e : Engine) (c : Command) :
    (e.statusEvents c).filterMap Event.status? =
      if e.disabledAfter c = e.memo.disabled then [] else [e.disabledAfter c] := by
  have hgate : ∀ s, (e.checkDisabled s).events.filterMap Event.status? =
      if (e.settings s).disabled = e.memo.disabled then [] else [(e.settings s).disabled] := by
    intro s
    by_cases hsame : (e.settings s).disabled = e.memo.disabled
    · simp [checkDisabled, TransitionMemo.recordDisabled, hsame]
    · simp [checkDisabled, TransitionMemo.recordDisabled, hsame, Event.status?]
  cases c with
  | cycle s => exact hgate s
  | reconcile s => exact hgate s
  | isDisabled s => exact hgate s
  | apply s => exact (if_pos rfl).symm
  | hasChanged previous current => exact (if_pos rfl).symm
  | setOverrides overrides => exact (if_pos rfl).symm

/-- A command tells the flag that disables the manager if that changes, and then once. -/
theorem filterMap_events (e : Engine) (c : Command) (o : Observed N) :
    ((e.perform c).run o).1.events.filterMap Event.status? =
      if e.disabledAfter c = e.memo.disabled then [] else [e.disabledAfter c] := by
  have haccounts : ((e.accounts c o).flatMap (·.events)).filterMap Event.status? = [] := by
    refine List.filterMap_eq_nil_iff.mpr fun ev hev => ?_
    obtain ⟨a, ha, hmem⟩ := List.mem_flatMap.mp hev
    exact Event.status?_of_isOfInterface (isOfInterface_of_mem ha ev hmem)
  have hcompletion : ((e.perform c).run o).1.answer.completion.filterMap Event.status? = [] := by
    rw [Answer.completion, List.filterMap_map]
    exact List.filterMap_eq_nil_iff.mpr fun r _ => rfl
  rw [perform_events, List.filterMap_append, List.filterMap_append, haccounts, hcompletion,
    List.append_nil, List.append_nil, filterMap_statusEvents]

/-- The flags told so far alternate, and the last of them is remembered. -/
def StatusTold (e : Engine) (told : List Event) : Prop :=
  Alternates (told.filterMap Event.status?) e.memo.disabled

theorem statusTold_perform {told : List Event} (c : Command) (o : Observed N)
    (h : e.StatusTold told) :
    ((e.perform c).run o).1.engine.StatusTold (told ++ ((e.perform c).run o).1.events) := by
  rw [StatusTold, List.filterMap_append, filterMap_events, disabled_perform]
  by_cases hsame : e.disabledAfter c = e.memo.disabled
  · rw [if_pos hsame, List.append_nil, hsame]
    exact h
  · rw [if_neg hsame]
    exact h.snoc hsame

end Engine

namespace Managed
variable {N : Type} [Site N] {m : Managed N} {s : Snapshot}

/-- A cycle, or a pass that is asked for, finds the manager disabled if the settings say so. -/
theorem perform_disabled {c : Command} (hc : c ∈ [Command.cycle s, .reconcile s]) :
    (m.perform c).1 = .outcome (.ok .disabled) ↔ (m.engine.settings s).disabled = true := by
  have hnot {answer : Except Fault CycleOutcome} (hgate : (m.engine.settings s).disabled = false)
      (hanswer : answer ≠ .ok .disabled) : Answer.outcome answer = .outcome (.ok .disabled) ↔
        (m.engine.settings s).disabled = true := by
    rw [hgate, Answer.outcome.injEq]
    exact iff_of_false hanswer Bool.false_ne_true
  rcases List.mem_pair.mp hc with rfl | rfl
  · have hperform : (m.perform (.cycle s)).1 =
        .outcome ((m.engine.cycle s).run m.site).1.answer := rfl
    rw [hperform]
    cases hcycle : (m.engine.cycle s).run m.site with
    | mk step o =>
    cases Engine.cycles hcycle with
    | disabled hgate => exact iff_of_true rfl hgate
    | unchanged hgate hdue => exact hnot hgate nofun
    | applied hgate hdue hpass => exact hnot hgate nofun
    | failed hgate hdue hpass => exact hnot hgate nofun
  · have hperform : (m.perform (.reconcile s)).1 =
        .outcome ((m.engine.reconcile s).run m.site).1.answer := rfl
    rw [hperform]
    cases hreconcile : (m.engine.reconcile s).run m.site with
    | mk step o =>
    cases Engine.reconciles hreconcile with
    | disabled hgate => exact iff_of_true rfl hgate
    | @passed pass _ hgate hpass =>
      obtain ⟨answer, events, engine⟩ := pass
      cases answer with
      | error fault => exact hnot hgate nofun
      | ok report => exact hnot hgate nofun

/-- A command that finds the manager disabled asks nothing, and remembers that and at most its
snapshot. -/
theorem perform_of_disabled {c : Command} (hc : c ∈ [Command.cycle s, .reconcile s])
    (hdisabled : (m.engine.settings s).disabled = true) :
    (m.perform c).2.site = m.site ∧ ∃ previous, (m.perform c).2.engine =
      { m.engine with memo := { m.engine.memo with disabled := true }, previous } := by
  have hgate : (m.engine.checkDisabled s).answer = true := hdisabled
  have hengine : (m.engine.checkDisabled s).engine =
      { m.engine with memo := { m.engine.memo with disabled := true } } := by
    simp only [Engine.checkDisabled, TransitionMemo.recordDisabled, hdisabled]
  unfold perform
  rcases List.mem_pair.mp hc with rfl | rfl
  · have hidle : m.engine.pass? (.cycle s) = none := if_pos hgate
    rw [Engine.perform_idle hidle]
    simp only [Engine.idleStep, hgate, hengine, if_true]
    exact ⟨trivial, some s, rfl⟩
  · have hidle : m.engine.pass? (.reconcile s) = none := if_pos hgate
    rw [Engine.perform_idle hidle]
    exact ⟨rfl, m.engine.previous, hengine⟩

/-- Whatever happens to a fresh reconciler, the events that tell of the flag which disables the
manager alternate and begin with `true`, and what is remembered is the last that was told. A cycle,
or a pass that is asked for, remembers what the settings say, and answers that the manager is
disabled exactly if that is remembered; it asks nothing of the site then, and nothing else that is
remembered changes but the snapshot of the last cycle. -/
theorem statuses_alternate (overrides : LocalConfig) (o : Observed N) (hs : List (Happening N)) :
    let m : Managed N := ⟨Engine.fresh overrides, o⟩
    Alternates ((m.events hs).filterMap Event.status?) (m.run hs).engine.memo.disabled ∧
    ∀ s, ∀ c ∈ [Command.cycle s, .reconcile s],
      let next := (m.run hs).perform c
      next.2.engine.memo.disabled = ((m.run hs).engine.settings s).disabled ∧
      (next.1 = .outcome (.ok .disabled) ↔ next.2.engine.memo.disabled = true) ∧
      (next.1 = .outcome (.ok .disabled) → next.2.site = (m.run hs).site ∧ ∃ previous,
        next.2.engine = { (m.run hs).engine with
          memo := { (m.run hs).engine.memo with disabled := true }, previous }) := by
  intro m
  constructor
  · have hstart : m.engine.StatusTold [] := .nil
    exact keeps_told (fun e told c o h => Engine.statusTold_perform c o h) hstart hs
  · intro s c hc next
    have hdisabled : next.1 = .outcome (.ok .disabled) ↔
        ((m.run hs).engine.settings s).disabled = true := perform_disabled hc
    have hafter : next.2.engine.memo.disabled = ((m.run hs).engine.settings s).disabled := by
      have hperform := (m.run hs).engine.disabled_perform c (m.run hs).site
      rcases List.mem_pair.mp hc with rfl | rfl
      · exact hperform
      · exact hperform
    refine ⟨hafter, ?_, fun h => perform_of_disabled hc (hdisabled.mp h)⟩
    rw [hafter]
    exact hdisabled

/-- The manager is disabled, enabled by a snapshot that a pass is asked for with, and disabled
again. Between that its snapshot says nothing that can be read. -/
def flips : List (Happening (Machine MemoryHost MemoryLedger)) :=
  [.command (.cycle (flagged "true")), .command (.isDisabled (flagged "perhaps")),
    .command (.reconcile (flagged "false")), .command (.cycle (flagged "true"))]

theorem flips_alternate :
    Alternates ((events ⟨Engine.fresh {}, flaggedSite⟩ flips).filterMap Event.status?) true ∧
    (events ⟨Engine.fresh {}, flaggedSite⟩ flips).filterMap Event.status? = [true, false, true] ∧
    ((run ⟨Engine.fresh {}, flaggedSite⟩ flips).perform (.cycle (flagged ""))).1 =
      .outcome (.ok .disabled) ∧
    ((run ⟨Engine.fresh {}, flaggedSite⟩ flips).perform (.cycle (flagged ""))).2.site =
      (run ⟨Engine.fresh {}, flaggedSite⟩ flips).site := by
  obtain ⟨halternates, hgate⟩ := statuses_alternate {} flaggedSite flips
  obtain ⟨-, hdisabled, hidle⟩ := hgate (flagged "") (.cycle (flagged "")) List.mem_cons_self
  have hlast : (run ⟨Engine.fresh {}, flaggedSite⟩ flips).engine.memo.disabled = true := by
    decide +kernel
  have hanswer := hdisabled.mpr (by decide +kernel)
  rw [hlast] at halternates
  exact ⟨halternates, by decide +kernel, hanswer, (hidle hanswer).1⟩

end Managed
end ForwardedIp
