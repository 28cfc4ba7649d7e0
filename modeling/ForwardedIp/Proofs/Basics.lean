/-!
# Actions, outcomes and histories

A run of an action is the runs of its parts, an outcome of parts in sequence is good if each of them
is, and what stands in a history that has grown by one entry is that entry or stood there before.
-/
namespace ForwardedIp

theorem run_bind {N α β : Type} {x : StateM N α} {f : α → StateM N β} {n n₁ : N} {a : α}
    (h : x.run n = (a, n₁)) : (x >>= f).run n = (f a).run n₁ := by
  rw [StateT.run_bind, h]
  rfl

theorem run_mapM_cons {N α β : Type} (f : α → StateM N β) (a : α) (as : List α) (n : N) :
    ((a :: as).mapM f).run n =
      (((f a).run n).1 :: ((as.mapM f).run ((f a).run n).2).1,
        ((as.mapM f).run ((f a).run n).2).2) := by
  rw [List.mapM_cons]
  rfl

theorem ok_of_bind {ε α β : Type} {x : Except ε α} {f : α → Except ε β} {b : β}
    (h : x >>= f = .ok b) : ∃ a, x = .ok a ∧ f a = .ok b := by
  cases x with
  | error fault => cases h
  | ok a => exact ⟨a, rfl, h⟩

/-- An entry of a history that ends in some entry is that one or stands before it. -/
theorem last_or_earlier {α : Type} {past before since : List α} {x y : α}
    (h : before ++ y :: since = past ++ [x]) : (before = past ∧ y = x ∧ since = []) ∨
      ∃ rest, past = before ++ y :: rest ∧ since = rest ++ [x] := by
  rcases List.append_eq_append_iff.mp h with ⟨middle, hpast, hsince⟩ | ⟨middle, hbefore, hlast⟩
  · cases middle with
    | nil =>
      obtain ⟨hy, hnone⟩ := List.cons.inj hsince
      exact .inl ⟨(hpast.trans (List.append_nil _)).symm, hy, hnone⟩
    | cons z rest =>
      obtain ⟨rfl, hrest⟩ := List.cons.inj hsince
      exact .inr ⟨rest, hpast, hrest⟩
  · -- Nothing of the split can come after the last entry.
    cases middle with
    | nil =>
      obtain ⟨hx, hnone⟩ := List.cons.inj hlast
      exact .inl ⟨hbefore.trans (List.append_nil _), hx.symm, hnone.symm⟩
    | cons z rest => simp at hlast

end ForwardedIp
