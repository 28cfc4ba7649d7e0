import Mathlib.Data.List.Induction
/-!
# First places

A list without its later copies holds everything once, in the order of first places. Nothing else
has to be said of it: there is one such list only. It grows at its end with the list that it is
taken from, by what is new there.
-/
namespace ForwardedIp
variable {α : Type} [BEq α] [LawfulBEq α] {xs firsts firsts' : List α} {p : α → Prop} {x : α}

/-- A list holds what has a property in another one, each once, in the order of first places. -/
structure FirstsOf (xs : List α) (p : α → Prop) (firsts : List α) : Prop where
  mem_iff (x : α) : x ∈ firsts ↔ x ∈ xs ∧ p x
  ordered : firsts.Pairwise fun a b => xs.idxOf a < xs.idxOf b

namespace FirstsOf

omit [LawfulBEq α] in
theorem nodup (h : FirstsOf xs p firsts) : firsts.Nodup := by
  refine h.ordered.imp fun hlt heq => ?_
  rw [heq] at hlt
  exact Nat.lt_irrefl _ hlt

omit [LawfulBEq α] in
theorem unique (h : FirstsOf xs p firsts) (h' : FirstsOf xs p firsts') : firsts = firsts' := by
  have hperm : firsts.Perm firsts' := by
    refine (List.perm_ext_iff_of_nodup h.nodup h'.nodup).mpr fun x => ?_
    rw [h.mem_iff, h'.mem_iff]
  exact hperm.eq_of_pairwise (fun a b _ _ hab hba => by omega) h.ordered h'.ordered

omit [LawfulBEq α] in
theorem iff_eq (h : FirstsOf xs p firsts) : FirstsOf xs p firsts' ↔ firsts' = firsts := by
  constructor
  · intro h'
    exact h'.unique h
  · rintro rfl
    exact h

omit [LawfulBEq α] in
/-- What has a further property keeps its order. -/
theorem filter (h : FirstsOf xs p firsts) (q : α → Bool) :
    FirstsOf xs (fun x => p x ∧ q x = true) (firsts.filter q) where
  mem_iff x := by rw [List.mem_filter, h.mem_iff, and_assoc]
  ordered := h.ordered.sublist List.filter_sublist

omit [LawfulBEq α] in
theorem congr {q : α → Prop} (h : FirstsOf xs p firsts) (hpq : ∀ x ∈ xs, p x ↔ q x) :
    FirstsOf xs q firsts where
  mem_iff x := by rw [h.mem_iff]; exact and_congr_right (hpq x)
  ordered := h.ordered

/-- First places do not move when the list grows at its end. -/
theorem ordered_append (h : FirstsOf xs p firsts) (ys : List α) :
    firsts.Pairwise fun a b => (xs ++ ys).idxOf a < (xs ++ ys).idxOf b := by
  refine h.ordered.imp_of_mem fun ha hb hlt => ?_
  rwa [List.idxOf_append, if_pos ((h.mem_iff _).mp ha).1, List.idxOf_append,
    if_pos ((h.mem_iff _).mp hb).1]

theorem concat_old (h : FirstsOf xs p firsts) (hold : p x → x ∈ xs) :
    FirstsOf (xs ++ [x]) p firsts where
  mem_iff y := by
    rw [h.mem_iff, List.mem_append, List.mem_singleton]
    constructor
    · rintro ⟨hy, hp⟩
      exact ⟨.inl hy, hp⟩
    · rintro ⟨hy | rfl, hp⟩
      · exact ⟨hy, hp⟩
      · exact ⟨hold hp, hp⟩
  ordered := h.ordered_append [x]

theorem concat_new (h : FirstsOf xs p firsts) (hnew : x ∉ xs) (hp : p x) :
    FirstsOf (xs ++ [x]) p (firsts ++ [x]) where
  mem_iff y := by
    rw [List.mem_append, h.mem_iff, List.mem_append, List.mem_singleton]
    constructor
    · rintro (⟨hy, hpy⟩ | rfl)
      · exact ⟨.inl hy, hpy⟩
      · exact ⟨.inr rfl, hp⟩
    · rintro ⟨hy | rfl, hpy⟩
      · exact .inl ⟨hy, hpy⟩
      · exact .inr rfl
  ordered := by
    refine List.pairwise_append.mpr ⟨h.ordered_append [x], List.pairwise_singleton _ _, ?_⟩
    intro a ha b hb
    obtain rfl := List.mem_singleton.mp hb
    have hmem := ((h.mem_iff a).mp ha).1
    have hlt := List.idxOf_lt_length_iff.mpr hmem
    rw [List.idxOf_append, if_pos hmem, List.idxOf_append, if_neg hnew]
    omega

end FirstsOf

theorem eraseDups_concat_of_mem (hx : x ∈ xs) : (xs ++ [x]).eraseDups = xs.eraseDups := by
  simp [List.eraseDups_append, List.removeAll, hx]

theorem eraseDups_concat_of_notMem (hx : x ∉ xs) :
    (xs ++ [x]).eraseDups = xs.eraseDups ++ [x] := by
  simp [List.eraseDups_append, List.removeAll, hx, List.eraseDups_cons]

/-- What passes a test, without later copies, is what has its first places there. -/
theorem firstsOf_filter (test : α → Bool) (xs : List α) :
    FirstsOf xs (fun x => test x = true) (xs.filter test).eraseDups := by
  induction xs using List.reverseRecOn with
  | nil => exact ⟨by simp, .nil⟩
  | append_singleton xs x ih =>
    rw [List.filter_append]
    cases hx : test x with
    | false =>
      rw [List.filter_cons_of_neg (by simp [hx]), List.filter_nil, List.append_nil]
      exact ih.concat_old fun h => by rw [hx] at h; cases h
    | true =>
      rw [List.filter_cons_of_pos hx, List.filter_nil]
      by_cases hmem : x ∈ xs
      · rw [eraseDups_concat_of_mem (List.mem_filter.mpr ⟨hmem, hx⟩)]
        exact ih.concat_old fun _ => hmem
      · rw [eraseDups_concat_of_notMem fun h => hmem (List.mem_filter.mp h).1]
        exact ih.concat_new hmem hx

theorem firstsOf_eraseDups (xs : List α) : FirstsOf xs (fun _ => True) xs.eraseDups := by
  have h := firstsOf_filter (fun _ => true) xs
  rw [List.filter_eq_self.mpr fun _ _ => rfl] at h
  exact h.congr fun _ _ => by simp

theorem nodup_eraseDups (xs : List α) : xs.eraseDups.Nodup := (firstsOf_eraseDups xs).nodup

theorem eraseDups_of_nodup (h : xs.Nodup) : xs.eraseDups = xs := by
  induction xs using List.reverseRecOn with
  | nil => rfl
  | append_singleton xs x ih =>
    obtain ⟨hxs, -, hfresh⟩ := List.nodup_append.mp h
    have hx : x ∉ xs := fun hmem => hfresh x hmem x (List.mem_singleton_self x) rfl
    rw [eraseDups_concat_of_notMem hx, ih hxs]

theorem eraseDups_filter (test : α → Bool) (xs : List α) :
    (xs.filter test).eraseDups = xs.eraseDups.filter test :=
  (firstsOf_filter test xs).unique
    (((firstsOf_eraseDups xs).filter test).congr fun _ _ => by simp)

theorem eraseDups_sublist (xs : List α) : xs.eraseDups.Sublist xs := by
  induction xs using List.reverseRecOn with
  | nil => exact .slnil
  | append_singleton xs x ih =>
    by_cases hx : x ∈ xs
    · rw [eraseDups_concat_of_mem hx]
      exact ih.trans (List.sublist_append_left xs [x])
    · rw [eraseDups_concat_of_notMem hx]
      exact ih.append_right [x]

theorem filter_mem_of_sublist (h : firsts.Sublist xs) (hnodup : xs.Nodup) :
    xs.filter (firsts.contains ·) = firsts := by
  induction h with
  | slnil => rfl
  | @cons firsts xs x h ih =>
    obtain ⟨hfresh, hnodup⟩ := List.nodup_cons.mp hnodup
    have hx : ¬ firsts.contains x = true := by
      rw [List.contains_iff_mem]
      exact fun hmem => hfresh (h.subset hmem)
    rw [List.filter_cons_of_neg hx, ih hnodup]
  | @cons_cons firsts xs x h ih =>
    obtain ⟨hfresh, hnodup⟩ := List.nodup_cons.mp hnodup
    have hrest : xs.filter ((x :: firsts).contains ·) = xs.filter (firsts.contains ·) := by
      refine List.filter_congr fun y hy => ?_
      have hne : y ≠ x := fun heq => hfresh (heq ▸ hy)
      simp [hne]
    rw [List.filter_cons_of_pos (by simp), hrest, ih hnodup]

/-- Some of the first places are found again by what stands there. -/
theorem eraseDups_filter_mem (h : firsts.Sublist xs.eraseDups) :
    (xs.filter (firsts.contains ·)).eraseDups = firsts := by
  rw [eraseDups_filter, filter_mem_of_sublist h (nodup_eraseDups xs)]

end ForwardedIp
