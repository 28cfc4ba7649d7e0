import Mathlib.Data.List.Pairwise
import ForwardedIp.Proofs.SiteLaws
/-!
# Actions that do not meet

Two states may agree in a part of what they hold. An action looks at that part only if it answers
the same on states that agree in it, and leaves states that do. Actions in a row none of which
changes what another one looks at can be taken in any order: each of them answers as it would at
the start, and leaves its part as it would have left it then.
-/
namespace ForwardedIp

variable {N α β : Type} {R : N → N → Prop}

/-- An action looks at nothing but a part of the state. -/
def LooksAt (R : N → N → Prop) (x : StateM N α) : Prop :=
  ∀ ⦃n n'⦄, R n n' → (x.run n).1 = (x.run n').1 ∧ R (x.run n).2 (x.run n').2

/-- An action leaves a part of the state as it was. -/
def Leaves (R : N → N → Prop) (x : StateM N α) : Prop := ∀ n, R n (x.run n).2

theorem looksAt_pure (a : α) : LooksAt R (pure a : StateM N α) := fun _ _ h => ⟨rfl, h⟩

theorem LooksAt.bind {x : StateM N α} {f : α → StateM N β} (hx : LooksAt R x)
    (hf : ∀ a, LooksAt R (f a)) : LooksAt R (x >>= f) := by
  intro n n' h
  cases hrun : x.run n with
  | mk a n₁ =>
  cases hrun' : x.run n' with
  | mk a' n₁' =>
  obtain ⟨hanswer, hstate⟩ := hx h
  rw [hrun, hrun'] at hanswer hstate
  obtain rfl : a = a' := hanswer
  rw [run_bind hrun, run_bind hrun']
  exact hf a hstate

theorem LooksAt.mapM {f : α → StateM N β} (hf : ∀ a, LooksAt R (f a)) (as : List α) :
    LooksAt R (as.mapM f) := by
  induction as with
  | nil => exact looksAt_pure []
  | cons a as ih =>
    rw [List.mapM_cons]
    exact (hf a).bind fun b => ih.bind fun bs => looksAt_pure (b :: bs)

theorem leaves_pure (hR : Equivalence R) (a : α) : Leaves R (pure a : StateM N α) := hR.refl

theorem Leaves.bind (hR : Equivalence R) {x : StateM N α} {f : α → StateM N β} (hx : Leaves R x)
    (hf : ∀ a, Leaves R (f a)) : Leaves R (x >>= f) :=
  fun n => hR.trans (hx n) (hf _ _)

theorem Leaves.mapM (hR : Equivalence R) {f : α → StateM N β} {as : List α}
    (hf : ∀ a ∈ as, Leaves R (f a)) : Leaves R (as.mapM f) := by
  induction as with
  | nil => exact leaves_pure hR []
  | cons a as ih =>
    obtain ⟨ha, has⟩ := List.forall_mem_cons.mp hf
    rw [List.mapM_cons]
    exact ha.bind hR fun b => (ih has).bind hR fun bs => leaves_pure hR (b :: bs)

theorem Leaves.looksAt (hR : Equivalence R) {x : StateM N α} (hx : Leaves R x)
    (hanswer : ∀ {n n'}, R n n' → (x.run n).1 = (x.run n').1) : LooksAt R x :=
  fun n n' h => ⟨hanswer h, hR.trans (hR.symm (hx n)) (hR.trans h (hx n'))⟩

/-- Every action of a row looks at a part of its own, which the others leave as it was. -/
structure Independent (f : α → StateM N β) (R : α → N → N → Prop) (as : List α) : Prop where
  same : ∀ a, Equivalence (R a)
  looksAt : ∀ a ∈ as, LooksAt (R a) (f a)
  leaves : as.Pairwise fun a b => Leaves (R a) (f b) ∧ Leaves (R b) (f a)

namespace Independent
variable {f : α → StateM N β} {R : α → N → N → Prop} {as bs : List α} {a : α}

theorem tail (h : Independent f R (a :: as)) : Independent f R as where
  same := h.same
  looksAt b hb := h.looksAt b (List.mem_cons_of_mem a hb)
  leaves := h.leaves.of_cons

/-- Each action answers as it would at the start. -/
theorem answers (h : Independent f R as) (n : N) :
    ((as.mapM f).run n).1 = as.map fun a => ((f a).run n).1 := by
  induction as generalizing n with
  | nil => rfl
  | cons a as ih =>
    have hlater : ∀ b ∈ as, ((f b).run ((f a).run n).2).1 = ((f b).run n).1 := by
      intro b hb
      have hleaves : Leaves (R b) (f a) := (List.rel_of_pairwise_cons h.leaves hb).2
      exact (h.looksAt b (List.mem_cons_of_mem a hb) (hleaves n)).1.symm
    rw [run_mapM_cons, ih h.tail, List.map_cons, List.map_congr_left hlater]

/-- Each action leaves its part as it would have left it at the start. -/
theorem after (h : Independent f R as) (ha : a ∈ as) (n : N) :
    R a ((f a).run n).2 ((as.mapM f).run n).2 := by
  induction as generalizing n with
  | nil => cases ha
  | cons b as ih =>
    rw [run_mapM_cons]
    rcases List.mem_cons.mp ha with rfl | ha
    · have hlater : Leaves (R a) (as.mapM f) :=
        Leaves.mapM (h.same a) fun b hb => (List.rel_of_pairwise_cons h.leaves hb).1
      exact hlater _
    · have hleaves : Leaves (R a) (f b) := (List.rel_of_pairwise_cons h.leaves ha).2
      have hfirst : R a ((f a).run n).2 ((f a).run ((f b).run n).2).2 :=
        (h.looksAt a (List.mem_cons_of_mem b ha) (hleaves n)).2
      exact (h.same a).trans hfirst (ih h.tail ha _)

end Independent
end ForwardedIp
