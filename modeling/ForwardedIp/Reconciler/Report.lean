import ForwardedIp.Reconciler.Visit
/-!
# Reports of a pass

A pass counts what it did: interfaces reconciled and skipped, addresses added and removed,
operations that failed, and interfaces skipped for a failure that may pass.
-/
namespace ForwardedIp

structure Report where
  reconciled : Nat := 0
  skipped : Nat := 0
  transient : Nat := 0
  added : Nat := 0
  removed : Nat := 0
  failed : Nat := 0
  deriving DecidableEq

namespace Report

/-- Whether something has to be tried again. -/
def hasFailures (r : Report) : Bool := 0 < r.failed || 0 < r.transient

/-- Counts what was done on an interface. -/
def addWork (r : Report) (w : Work) : Report :=
  { r with
    reconciled := r.reconciled + 1
    added := r.added + w.binds.countP (!·.failed)
    removed := r.removed + w.unbinds.countP (!·.failed)
    failed := r.failed + w.binds.countP (·.failed) + w.unbinds.countP (·.failed) +
      (if w.saved.isOk then 0 else 1) }

/-- Counts a visit. -/
def add (r : Report) : Visit → Report
  | .unparseable _ => { r with skipped := r.skipped + 1 }
  | .unmatched _ _ => { r with skipped := r.skipped + 1 }
  | .unreadable _ _ _ => { r with skipped := r.skipped + 1, transient := r.transient + 1 }
  | .unrecorded _ _ _ => { r with skipped := r.skipped + 1, transient := r.transient + 1 }
  | .reconciled w => r.addWork w

/-- The report of a pass. -/
def ofVisits (visits : List Visit) : Report := visits.foldl add {}

/-- Adds up two reports. -/
def plus (r r' : Report) : Report where
  reconciled := r.reconciled + r'.reconciled
  skipped := r.skipped + r'.skipped
  transient := r.transient + r'.transient
  added := r.added + r'.added
  removed := r.removed + r'.removed
  failed := r.failed + r'.failed

theorem plus_right_comm (r r₁ r₂ : Report) : (r.plus r₁).plus r₂ = (r.plus r₂).plus r₁ := by
  simp only [plus, Nat.add_right_comm]

/-- A visit counts the same whatever was counted before it. -/
theorem add_eq_plus (r : Report) (v : Visit) : r.add v = r.plus (add {} v) := by
  cases v with
  | unparseable raw => rfl
  | unmatched raw mac => rfl
  | unreadable mac iface fault => rfl
  | unrecorded mac iface fault => rfl
  | reconciled w => simp [add, addWork, plus, Nat.add_assoc]

/-- A report is the sum of what the visits count. -/
theorem ofVisits_eq_sum (visits : List Visit) :
    ofVisits visits = (visits.map (add {})).foldl plus {} := by
  rw [List.foldl_map]
  exact congrArg (fun f => visits.foldl f {}) (funext fun r => funext (add_eq_plus r))

theorem ofVisits_perm {vs vs' : List Visit} (h : vs.Perm vs') : ofVisits vs = ofVisits vs' := by
  rw [ofVisits_eq_sum, ofVisits_eq_sum]
  exact (h.map (add {})).foldl_eq' (fun r₁ _ r₂ _ r => plus_right_comm r r₁ r₂) {}

end Report

end ForwardedIp
