import ForwardedIp.Proofs.Cycles
import ForwardedIp.Proofs.VisitEffects
/-!
# Passages of a pass

A pass is taken apart into its passages, one for each visit of a declared interface, with the site
before and after it. The passages of a command form a chain: nothing happens between them but that
the interfaces are listed.
-/
namespace ForwardedIp

/-- One visit of a pass, with the site before and after it. -/
structure Passage (N : Type) where
  live : List LiveInterface
  declared : DeclaredInterface
  before : N
  visit : Visit
  after : N

namespace Passage
variable {N : Type}

def calls (p : Passage (Observed N)) : List Call := p.after.calls.drop p.before.calls.length

/-- A passage wants a text for a hardware address. -/
def Wants (p : Passage N) (mac : Mac) (text : String) : Prop :=
  Mac.parse? p.declared.mac = some mac ∧ text ∈ Visit.wantedOf p.declared.forwardedIps

/-- Calls were added, and none of them asks for a change. -/
def Quiet (o o' : Observed N) : Prop :=
  ∃ calls, o'.calls = o.calls ++ calls ∧ calls.filter Call.changes = []

theorem quiet_outside (o : Observed N) (site : N) : Quiet o { o with site } :=
  ⟨[], (List.append_nil _).symm, rfl⟩

variable [Site N]

/-- A passage goes as its visit does. -/
def Goes (p : Passage N) : Prop := Visit.Goes p.live p.declared p.before p.visit p.after

theorem Goes.calls_eq {p : Passage (Observed N)} (g : p.Goes) :
    p.after.calls = p.before.calls ++ p.calls := by
  obtain ⟨calls, hcalls, -⟩ := Visit.Goes.calls_eq g
  rw [Passage.calls, hcalls, List.drop_left]

theorem calls_of_reconciliation {p : Passage (Observed N)} {w : Work}
    (r : Visit.Reconciliation p.live p.declared p.before w p.after) : p.calls = r.calls := by
  rw [Passage.calls, r.calls_eq, List.drop_left]

theorem Goes.reconciliation {p : Passage (Observed N)} (g : p.Goes) {c : Call} (hc : c ∈ p.calls)
    (hchanges : c.changes = true) :
    ∃ w, Nonempty (Visit.Reconciliation p.live p.declared p.before w p.after) := by
  obtain ⟨calls, hcalls, hreconciled⟩ := Visit.Goes.calls_eq g
  rw [Passage.calls, hcalls, List.drop_left] at hc
  obtain ⟨w, r, -⟩ := hreconciled c hc hchanges
  exact ⟨w, ⟨r⟩⟩

/-- The passages of a pass, once the live interfaces are known. -/
def ofVisits (live : List LiveInterface) : List DeclaredInterface → N → List (Passage N)
  | [], _ => []
  | d :: ds, n =>
      let (visit, n') := (Visit.run live d).run n
      ⟨live, d, n, visit, n'⟩ :: ofVisits live ds n'

/-- The passages of a pass. It has none if the live interfaces cannot be listed. -/
def ofPass (ds : List DeclaredInterface) (n : N) : List (Passage N) :=
  match (Site.interfaces : StateM N (Except Fault (List LiveInterface))).run n with
  | (.error _, _) => []
  | (.ok live, n') => ofVisits live ds n'

theorem mem_ofVisits {live : List LiveInterface} {ds : List DeclaredInterface} {n : N}
    {p : Passage N} (hp : p ∈ ofVisits live ds n) : p.live = live ∧ p.declared ∈ ds := by
  induction ds generalizing n with
  | nil => cases hp
  | cons d ds ih =>
    rcases List.mem_cons.mp hp with rfl | hp
    · exact ⟨rfl, List.mem_cons_self⟩
    · exact ⟨(ih hp).1, List.mem_cons_of_mem d (ih hp).2⟩

theorem mem_ofPass {ds : List DeclaredInterface} {n : N} {p : Passage N} (hp : p ∈ ofPass ds n) :
    p.declared ∈ ds ∧ ∃ n', Site.interfaces.run n = (.ok p.live, n') := by
  unfold ofPass at hp
  split at hp
  · cases hp
  · next live n' hlisted =>
    obtain ⟨rfl, hdeclared⟩ := mem_ofVisits hp
    exact ⟨hdeclared, n', hlisted⟩

/-- What may hold between one passage and the next: states follow by it if nothing happens, if it
holds step by step, and if the interfaces are listed. -/
structure Between (R : N → N → Prop) : Prop where
  refl (n : N) : R n n
  trans {n₁ n₂ n₃ : N} : R n₁ n₂ → R n₂ n₃ → R n₁ n₃
  listed {n n' : N} {a : Except Fault (List LiveInterface)} :
    Site.interfaces.run n = (a, n') → R n n'

/-- Passages from one state to another, between which `R` holds. -/
inductive Chain (R : N → N → Prop) : N → List (Passage N) → N → Prop where
  | nil {n n' : N} (h : R n n') : Chain R n [] n'
  | cons {n n' : N} {p : Passage N} {ps : List (Passage N)} (h : R n p.before) (hgoes : p.Goes)
      (rest : Chain R p.after ps n') : Chain R n (p :: ps) n'

namespace Chain
variable {R : N → N → Prop} {n n₁ n' : N} {p : Passage N} {ps earlier later : List (Passage N)}

theorem precede (hR : Between R) (h : R n n₁) (hchain : Chain R n₁ ps n') : Chain R n ps n' := by
  cases hchain with
  | nil hlast => exact .nil (hR.trans h hlast)
  | cons hfirst hgoes rest => exact .cons (hR.trans h hfirst) hgoes rest

theorem append (hR : Between R) (h : Chain R n earlier n₁) (h' : Chain R n₁ later n') :
    Chain R n (earlier ++ later) n' := by
  induction h with
  | nil hlast => exact h'.precede hR hlast
  | cons hfirst hgoes rest ih => exact .cons hfirst hgoes (ih h')

theorem split (h : Chain R n (earlier ++ p :: later) n') :
    Chain R n earlier p.before ∧ p.Goes ∧ Chain R p.after later n' := by
  induction earlier generalizing n with
  | nil =>
    cases h with
    | cons hfirst hgoes rest => exact ⟨.nil hfirst, hgoes, rest⟩
  | cons q earlier ih =>
    cases h with
    | cons hfirst hgoes rest =>
      obtain ⟨hearlier, hp, hlater⟩ := ih rest
      exact ⟨.cons hfirst hgoes hearlier, hp, hlater⟩

theorem goes_of_mem (h : Chain R n ps n') (hp : p ∈ ps) : p.Goes := by
  obtain ⟨earlier, later, rfl⟩ := List.append_of_mem hp
  exact h.split.2.1

end Chain

theorem between_quiet : Between (Quiet : Observed N → Observed N → Prop) where
  refl o := ⟨[], by simp, rfl⟩
  trans := by
    rintro o₁ o₂ o₃ ⟨calls, heq, hquiet⟩ ⟨calls', heq', hquiet'⟩
    refine ⟨calls ++ calls', ?_, ?_⟩
    · rw [heq', heq, List.append_assoc]
    · rw [List.filter_append, hquiet, hquiet', List.append_nil]
  listed h := ⟨_, (Observed.noting_run h).2, rfl⟩

/-- All the changes that a chain asks for are asked for in its passages. -/
theorem Chain.calls_eq {o o' : Observed N} {ps : List (Passage (Observed N))}
    (h : Chain Quiet o ps o') : ∃ calls, o'.calls = o.calls ++ calls ∧
      calls.filter Call.changes = ps.flatMap fun p => p.calls.filter Call.changes := by
  induction h with
  | nil hlast => exact hlast
  | @cons o o' p ps hfirst hgoes rest ih =>
    obtain ⟨calls, heq, hquiet⟩ := hfirst
    obtain ⟨calls', heq', hfilter⟩ := ih
    refine ⟨calls ++ (p.calls ++ calls'), ?_, ?_⟩
    · rw [heq', hgoes.calls_eq, heq, List.append_assoc, List.append_assoc]
    · rw [List.filter_append, hquiet, List.nil_append, List.filter_append, hfilter,
        List.flatMap_cons]

theorem chain_ofVisits {R : N → N → Prop} (hR : Between R) (live : List LiveInterface)
    (ds : List DeclaredInterface) (n : N) :
    Chain R n (ofVisits live ds n) ((ds.mapM (Visit.run live)).run n).2 := by
  induction ds generalizing n with
  | nil => exact .nil (hR.refl n)
  | cons d ds ih =>
    rw [List.mapM_cons]
    exact .cons (hR.refl n) (Visit.goes rfl) (ih _)

end Passage

/-- The snapshot that a command may make a pass with. -/
def Command.snapshot? : Command → Option Snapshot
  | .cycle s | .reconcile s | .apply s => some s
  | _ => none

namespace Engine
variable {N : Type} [Site N]
open Passage

/-- The engine and the snapshot with which a command makes a pass, if it makes one. -/
def pass? (e : Engine) : Command → Option (Engine × Snapshot)
  | .apply s => some (e, s)
  | .reconcile s =>
      if (e.checkDisabled s).answer then none else some ((e.checkDisabled s).engine, s)
  | .cycle s =>
      if (e.checkDisabled s).answer then none
      else if e.due s then some (e.passEngine s, s)
      else none
  | _ => none

theorem snapshot?_of_pass? {e e' : Engine} {c : Command} {s : Snapshot}
    (h : e.pass? c = some (e', s)) : c.snapshot? = some s := by
  cases c with
  | apply s' =>
    cases h
    rfl
  | reconcile s' =>
    simp only [pass?] at h
    split at h
    · cases h
    · cases h
      rfl
  | cycle s' =>
    simp only [pass?] at h
    split at h
    · cases h
    · split at h
      · cases h
        rfl
      · cases h
  | isDisabled s' => cases h
  | hasChanged previous current => cases h
  | setOverrides overrides => cases h

def passages (e : Engine) (c : Command) (n : N) : List (Passage N) :=
  match e.pass? c with
  | none => []
  | some (e', s) => ofPass (e'.declaration s) n

variable {R : N → N → Prop}

theorem Applies.chain (hR : Between R) {e : Engine} {s : Snapshot} {n n' : N}
    {step : Step (Except Fault Report)} (h : Applies e s n step n') :
    Chain R n (ofPass (e.declaration s) n) n' := by
  unfold ofPass
  cases h with
  | unlisted hlisted =>
    rw [hlisted]
    exact .nil (hR.listed hlisted)
  | @visited live visits n₁ n' hlisted hvisits =>
    have hchain := chain_ofVisits hR live (e.declaration s) n₁
    rw [hvisits] at hchain
    rw [hlisted]
    exact hchain.precede hR (hR.listed hlisted)

/-- A passage of a command is about an interface of its declaration and the interfaces listed. -/
theorem mem_passages {e : Engine} {c : Command} {n : N} {p : Passage N} (hp : p ∈ e.passages c n) :
    ∃ e' s, e.pass? c = some (e', s) ∧ p.declared ∈ e'.declaration s ∧
      ∃ n', Site.interfaces.run n = (.ok p.live, n') := by
  unfold passages at hp
  split at hp
  · cases hp
  · next e' s hpass => exact ⟨e', s, hpass, mem_ofPass hp⟩

/-- A command leaves the site as its passages do. -/
theorem chain_perform (hR : Between R) (e : Engine) (c : Command) (n : N) :
    Chain R n (e.passages c n) ((e.perform c).run n).2 := by
  cases c with
  | apply s => exact (applies rfl).chain hR
  | reconcile s =>
    show Chain R n (e.passages (.reconcile s) n) ((e.reconcile s).run n).2
    unfold passages pass?
    cases hreconcile : (e.reconcile s).run n with
    | mk step n' =>
    cases reconciles hreconcile with
    | disabled hgate =>
      simp only [hgate, if_true]
      exact .nil (hR.refl n)
    | passed hgate hpass =>
      simp only [hgate, Bool.false_eq_true, if_false]
      exact hpass.chain hR
  | cycle s =>
    show Chain R n (e.passages (.cycle s) n) ((e.cycle s).run n).2
    unfold passages pass?
    cases hcycle : (e.cycle s).run n with
    | mk step n' =>
    cases cycles hcycle with
    | disabled hgate =>
      simp only [hgate, if_true]
      exact .nil (hR.refl n)
    | unchanged hgate hdue =>
      simp only [hgate, hdue, Bool.false_eq_true, if_false]
      exact .nil (hR.refl n)
    | applied hgate hdue hpass =>
      simp only [hgate, hdue, Bool.false_eq_true, if_false, if_true]
      exact hpass.chain hR
    | failed hgate hdue hpass =>
      simp only [hgate, hdue, Bool.false_eq_true, if_false, if_true]
      exact hpass.chain hR
  | isDisabled s => exact .nil (hR.refl n)
  | hasChanged previous current => exact .nil (hR.refl n)
  | setOverrides overrides => exact .nil (hR.refl n)

end Engine

end ForwardedIp
