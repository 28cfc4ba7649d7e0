/-!
# Keyed lists

A map as a list of pairs in the order in which the keys first came. Reading is core's
`List.lookup`; setting a key changes its pair in place, so that every key keeps its position.
-/
namespace ForwardedIp.Keyed

variable {κ α : Type} [DecidableEq κ]

/-- Sets a key: in its place if it is there already, at the end otherwise. -/
def put (key : κ) (a : α) : List (κ × α) → List (κ × α)
  | [] => [(key, a)]
  | (k, b) :: rest => if k = key then (key, a) :: rest else (k, b) :: put key a rest

def drop (key : κ) (entries : List (κ × α)) : List (κ × α) := entries.filter fun e => e.1 ≠ key

def keys (entries : List (κ × α)) : List κ := entries.map Prod.fst

/-- A new key comes last. -/
theorem put_of_notMem {key : κ} {entries : List (κ × α)} (h : key ∉ keys entries) (a : α) :
    put key a entries = entries ++ [(key, a)] := by
  induction entries with
  | nil => rfl
  | cons e rest ih =>
      obtain ⟨k, b⟩ := e
      have hk : k ≠ key := fun heq => h (by simp [keys, heq])
      have hrest : key ∉ keys rest := fun hmem => h (List.mem_cons_of_mem k hmem)
      simp [put, hk, ih hrest]

/-- Setting a key that is there keeps the keys. -/
theorem keys_put_of_mem {key : κ} {entries : List (κ × α)} (h : key ∈ keys entries) (a : α) :
    keys (put key a entries) = keys entries := by
  induction entries with
  | nil => cases h
  | cons e rest ih =>
      obtain ⟨k, b⟩ := e
      by_cases hk : k = key
      · simp [put, hk, keys]
      · have hrest : key ∈ keys rest := by
          rcases List.mem_cons.mp h with rfl | hmem
          · exact absurd rfl hk
          · exact hmem
        simpa [put, hk, keys] using ih hrest

theorem nodup_keys_put {entries : List (κ × α)} (h : (keys entries).Nodup) (key : κ) (a : α) :
    (keys (put key a entries)).Nodup := by
  by_cases hkey : key ∈ keys entries
  · rw [keys_put_of_mem hkey]
    exact h
  · rw [put_of_notMem hkey, keys, List.map_append, List.nodup_append]
    refine ⟨h, by simp, fun k hk other hother heq => ?_⟩
    rw [List.map_singleton, List.mem_singleton] at hother
    rw [heq, hother] at hk
    exact hkey hk

theorem nodup_keys_drop {entries : List (κ × α)} (h : (keys entries).Nodup) (key : κ) :
    (keys (drop key entries)).Nodup :=
  h.sublist (List.filter_sublist.map Prod.fst)

theorem mem_put {key : κ} {a : α} {entries : List (κ × α)} {e : κ × α}
    (h : e ∈ put key a entries) : e = (key, a) ∨ e ∈ entries := by
  induction entries with
  | nil => exact .inl (List.mem_singleton.mp h)
  | cons e₀ rest ih =>
      obtain ⟨k, b⟩ := e₀
      by_cases hk : k = key
      · simp only [put, hk, if_true] at h
        rcases List.mem_cons.mp h with rfl | h
        · exact .inl rfl
        · exact .inr (List.mem_cons_of_mem _ h)
      · simp only [put, hk, if_false] at h
        rcases List.mem_cons.mp h with rfl | h
        · exact .inr List.mem_cons_self
        · exact (ih h).imp_right (List.mem_cons_of_mem _)

section Values
variable {β : Type} (f : α → β)

/-- Changes the values and keeps the keys. -/
def mapValues (entries : List (κ × α)) : List (κ × β) := entries.map fun e => (e.1, f e.2)

omit [DecidableEq κ] in
theorem keys_mapValues (entries : List (κ × α)) : keys (mapValues f entries) = keys entries := by
  rw [keys, mapValues, List.map_map]
  rfl

omit [DecidableEq κ] in
theorem lookup_mapValues [BEq κ] (key : κ) (entries : List (κ × α)) :
    (mapValues f entries).lookup key = (entries.lookup key).map f := by
  induction entries with
  | nil => rfl
  | cons e rest ih =>
      obtain ⟨k, b⟩ := e
      rw [mapValues, List.map_cons, List.lookup_cons, List.lookup_cons]
      cases key == k
      · exact ih
      · rfl

theorem put_mapValues (key : κ) (a : α) (entries : List (κ × α)) :
    put key (f a) (mapValues f entries) = mapValues f (put key a entries) := by
  induction entries with
  | nil => rfl
  | cons e rest ih =>
      obtain ⟨k, b⟩ := e
      by_cases hk : k = key
      · simp [mapValues, put, hk]
      · simpa [mapValues, put, hk] using ih

theorem drop_mapValues (key : κ) (entries : List (κ × α)) :
    drop key (mapValues f entries) = mapValues f (drop key entries) := by
  rw [drop, mapValues, List.filter_map]
  rfl

end Values

variable [BEq κ] [LawfulBEq κ]

@[simp] theorem lookup_put_self (key : κ) (a : α) (entries : List (κ × α)) :
    (put key a entries).lookup key = some a := by
  induction entries with
  | nil => simp [put]
  | cons e rest ih =>
      obtain ⟨k, b⟩ := e
      by_cases h : k = key
      · simp [put, h]
      · have hk : (key == k) = false := by simpa using Ne.symm h
        simp [put, h, List.lookup_cons, hk, ih]

theorem lookup_put_of_ne {key other : κ} (h : other ≠ key) (a : α) (entries : List (κ × α)) :
    (put key a entries).lookup other = entries.lookup other := by
  have ho : (other == key) = false := by simpa using h
  induction entries with
  | nil => simp [put, List.lookup_cons, ho]
  | cons e rest ih =>
      obtain ⟨k, b⟩ := e
      by_cases hk : k = key
      · subst hk; simp [put, List.lookup_cons, ho]
      · simp [put, hk, List.lookup_cons, ih]

/-- Setting a key to what it holds changes nothing. -/
theorem put_of_lookup {key : κ} {a : α} {entries : List (κ × α)}
    (h : entries.lookup key = some a) : put key a entries = entries := by
  induction entries with
  | nil => cases h
  | cons e rest ih =>
      obtain ⟨k, b⟩ := e
      by_cases hk : k = key
      · subst hk
        rw [List.lookup_cons_self] at h
        cases h
        simp [put]
      · have hne : (key == k) = false := by simpa using Ne.symm hk
        rw [List.lookup_cons, hne] at h
        simp [put, hk, ih h]

@[simp] theorem lookup_drop_self (key : κ) (entries : List (κ × α)) :
    (drop key entries).lookup key = none := by
  rw [List.lookup_eq_none_iff]
  intro e he
  have hk : e.1 ≠ key := by simpa [drop] using (List.mem_filter.mp he).2
  simpa using Ne.symm hk

theorem lookup_drop_of_ne {key other : κ} (h : other ≠ key) (entries : List (κ × α)) :
    (drop key entries).lookup other = entries.lookup other := by
  induction entries with
  | nil => rfl
  | cons e rest ih =>
      obtain ⟨k, b⟩ := e
      by_cases hk : k = key
      · subst hk
        have ho : (other == k) = false := by simpa using h
        simpa [drop, List.lookup_cons, ho] using ih
      · have hd : drop key ((k, b) :: rest) = (k, b) :: drop key rest := by simp [drop, hk]
        rw [hd, List.lookup_cons, List.lookup_cons, ih]

/-- Dropping a key that is not there changes nothing. -/
theorem drop_of_lookup {key : κ} {entries : List (κ × α)} (h : entries.lookup key = none) :
    drop key entries = entries := by
  rw [drop, List.filter_eq_self]
  intro e he
  have hk := List.lookup_eq_none_iff.mp h e he
  have hne : e.1 ≠ key := fun heq => by simp [heq] at hk
  simpa using hne

end ForwardedIp.Keyed
