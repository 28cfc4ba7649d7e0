import ForwardedIp.Proofs.Passages
/-!
# Runs

A run is what happens to a reconciler and its site in order: commands, and changes that somebody
else makes at the site. It is a list of turns, and a chain of their passages with nothing between
them but enumerations and outside changes.
-/
namespace ForwardedIp

/-- A reconciler with the site where it works. -/
structure Managed (N : Type) where
  engine : Engine
  site : Observed N

/-- What happens to a reconciler and its site: a command, or a change that somebody else makes. -/
inductive Happening (N : Type) where
  | command (c : Command)
  | outside (change : N → N)

namespace Managed
variable {N : Type} [Site N]

/-- What a command answers, and what is there after it. -/
def perform (m : Managed N) (c : Command) : Answer × Managed N :=
  let (step, site) := (m.engine.perform c).run m.site
  (step.answer, ⟨step.engine, site⟩)

def step (m : Managed N) : Happening N → Managed N
  | .command c => (m.perform c).2
  | .outside change => { m with site.site := change m.site.site }

def run (m : Managed N) (hs : List (Happening N)) : Managed N := hs.foldl step m

end Managed

/-- A happening of a run, with what was there before it. -/
structure Turn (N : Type) where
  start : Managed N
  happening : Happening N

namespace Turn
variable {N : Type} [Site N]

def finish (t : Turn N) : Managed N := t.start.step t.happening

/-- The engine and the snapshot with which a turn makes a pass, if it makes one. -/
def pass? (t : Turn N) : Option (Engine × Snapshot) :=
  match t.happening with
  | .command c => t.start.engine.pass? c
  | .outside _ => none

def passages (t : Turn N) : List (Passage (Observed N)) :=
  match t.happening with
  | .command c => t.start.engine.passages c t.start.site
  | .outside _ => []

def calls (t : Turn N) : List Call := t.finish.site.calls.drop t.start.site.calls.length

end Turn

namespace Managed
variable {N : Type} [Site N] {m : Managed N} {hs : List (Happening N)}

def turns (m : Managed N) : List (Happening N) → List (Turn N)
  | [] => []
  | h :: hs => ⟨m, h⟩ :: turns (m.step h) hs

def passages (m : Managed N) (hs : List (Happening N)) : List (Passage (Observed N)) :=
  (m.turns hs).flatMap Turn.passages

def calls (m : Managed N) (hs : List (Happening N)) : List Call :=
  (m.run hs).site.calls.drop m.site.calls.length

/-- A turn of a run comes after the run of what happened before it. -/
theorem turns_split {before since : List (Turn N)} {t : Turn N}
    (h : m.turns hs = before ++ t :: since) : ∃ past future,
      hs = past ++ t.happening :: future ∧ t.start = m.run past ∧ before = m.turns past ∧
        since = t.finish.turns future := by
  induction hs generalizing m before with
  | nil => cases before <;> cases h
  | cons h₀ hs ih =>
    cases before with
    | nil =>
      cases h
      exact ⟨[], hs, rfl, rfl, rfl, rfl⟩
    | cons t₀ before =>
      obtain ⟨rfl, hrest⟩ := List.cons.inj h
      obtain ⟨past, future, rfl, hstart, rfl, rfl⟩ := ih hrest
      exact ⟨h₀ :: past, future, rfl, hstart, rfl, rfl⟩

variable {R : Observed N → Observed N → Prop}

theorem chain_turn (hR : Passage.Between R) (t : Turn N)
    (hout : ∀ change, t.happening = .outside change → ∀ o : Observed N,
      R o { o with site := change o.site }) :
    Passage.Chain R t.start.site t.passages t.finish.site := by
  obtain ⟨m, happening⟩ := t
  cases happening with
  | command c => exact Engine.chain_perform hR m.engine c m.site
  | outside change => exact .nil (hout change rfl m.site)

/-- A run is a chain of its passages, if outside changes keep to what holds between them. -/
theorem chain_run (hR : Passage.Between R) (m : Managed N) (hs : List (Happening N))
    (hout : ∀ change, .outside change ∈ hs → ∀ o : Observed N,
      R o { o with site := change o.site }) :
    Passage.Chain R m.site (m.passages hs) (m.run hs).site := by
  induction hs generalizing m with
  | nil => exact .nil (hR.refl m.site)
  | cons h hs ih =>
    have hfirst := chain_turn hR ⟨m, h⟩ fun change hchange => hout change (by simp [← hchange])
    have hrest := ih (m.step h) fun change hchange => hout change (List.mem_cons_of_mem _ hchange)
    exact hfirst.append hR hrest

/-- The changes that a run asks for are asked for in its passages, in order. -/
theorem filter_calls (m : Managed N) (hs : List (Happening N)) :
    (m.calls hs).filter Call.changes =
      (m.passages hs).flatMap fun p => p.calls.filter Call.changes := by
  have hchain := chain_run Passage.between_quiet m hs fun _ _ o => Passage.quiet_outside o _
  obtain ⟨calls, heq, hfilter⟩ := hchain.calls_eq
  rw [Managed.calls, heq, List.drop_left, hfilter]

/-- A change that is asked for in a run is asked for in one of its passages. -/
theorem exists_passage_of_call {m : Managed N} {hs : List (Happening N)} {c : Call}
    (hc : c ∈ m.calls hs) (hchanges : c.changes = true) :
    ∃ earlier p later, m.passages hs = earlier ++ p :: later ∧ c ∈ p.calls := by
  have hmem := List.mem_filter.mpr ⟨hc, hchanges⟩
  rw [m.filter_calls hs] at hmem
  obtain ⟨p, hp, hcp⟩ := List.mem_flatMap.mp hmem
  obtain ⟨earlier, later, hsplit⟩ := List.append_of_mem hp
  exact ⟨earlier, p, later, hsplit, (List.mem_filter.mp hcp).1⟩

theorem calls_of_mem {m : Managed N} {hs : List (Happening N)} {p : Passage (Observed N)}
    (hp : p ∈ m.passages hs) {c : Call} (hc : c ∈ p.calls) (hchanges : c.changes = true) :
    c ∈ m.calls hs := by
  have hmem : c ∈ (m.calls hs).filter Call.changes := by
    rw [m.filter_calls hs]
    exact List.mem_flatMap.mpr ⟨p, hp, List.mem_filter.mpr ⟨hc, hchanges⟩⟩
  exact (List.mem_filter.mp hmem).1

end Managed

namespace Turn
variable {N : Type} [Site N] {t : Turn N}

theorem chain_quiet (t : Turn N) :
    Passage.Chain Passage.Quiet t.start.site t.passages t.finish.site :=
  Managed.chain_turn Passage.between_quiet t fun _ _ o => Passage.quiet_outside o _

theorem goes_of_mem {p : Passage (Observed N)} (hp : p ∈ t.passages) : p.Goes :=
  t.chain_quiet.goes_of_mem hp

/-- A change that is asked for in a turn is asked for in one of its passages. -/
theorem exists_passage {c : Call} (hc : c ∈ t.calls) (hchanges : c.changes = true) :
    ∃ p ∈ t.passages, c ∈ p.calls := by
  obtain ⟨calls, heq, hfilter⟩ := t.chain_quiet.calls_eq
  rw [Turn.calls, heq, List.drop_left] at hc
  have hmem : c ∈ calls.filter Call.changes := List.mem_filter.mpr ⟨hc, hchanges⟩
  rw [hfilter] at hmem
  obtain ⟨p, hp, hcp⟩ := List.mem_flatMap.mp hmem
  exact ⟨p, hp, (List.mem_filter.mp hcp).1⟩

end Turn
end ForwardedIp
