import ForwardedIp.Proofs.FirstPlaces
import ForwardedIp.Reconciler.AddressDiff
/-!
# Differences are exact

A difference holds exactly what has to change, each text once, in the order of first places. Once
some of it is carried out, and the record is corrected by what failed, the new difference is what
failed.
-/
namespace ForwardedIp.AddressDiff
variable {recorded recorded' wanted bound bound' : List String} {d failed : AddressDiff}
  {ip : String}

theorem firstsOf_toAdd (recorded wanted bound : List String) :
    FirstsOf wanted (· ∉ bound) (between recorded wanted bound).toAdd :=
  (firstsOf_filter _ wanted).congr fun ip _ => by simp

theorem firstsOf_toRemove (recorded wanted bound : List String) :
    FirstsOf bound (fun ip => ip ∈ recorded ∧ ip ∉ wanted)
      (between recorded wanted bound).toRemove :=
  (firstsOf_filter _ bound).congr fun ip _ => by simp

theorem toAdd_sublist : (between recorded wanted bound).toAdd.Sublist wanted.eraseDups := by
  show (wanted.filter _).eraseDups.Sublist _
  rw [eraseDups_filter]
  exact List.filter_sublist

theorem toRemove_sublist : (between recorded wanted bound).toRemove.Sublist bound.eraseDups := by
  show (bound.filter _).eraseDups.Sublist _
  rw [eraseDups_filter]
  exact List.filter_sublist

theorem nodup_toAdd : (between recorded wanted bound).toAdd.Nodup :=
  (firstsOf_toAdd recorded wanted bound).nodup

theorem nodup_toRemove : (between recorded wanted bound).toRemove.Nodup :=
  (firstsOf_toRemove recorded wanted bound).nodup

/-- The order of what is bound counts for the order of removals alone. -/
theorem between_bound_perm (recorded wanted : List String) (h : bound.Perm bound') :
    (between recorded wanted bound).toAdd = (between recorded wanted bound').toAdd ∧
      (between recorded wanted bound).toRemove.Perm (between recorded wanted bound').toRemove := by
  constructor
  · have hcontains : ∀ ip, bound.contains ip = bound'.contains ip := fun ip => h.contains_eq
    simp only [between, hcontains]
  · refine (List.perm_ext_iff_of_nodup nodup_toRemove nodup_toRemove).mpr fun ip => ?_
    rw [mem_toRemove, mem_toRemove, h.mem_iff]

/-- The order of what is wanted counts for the order of additions alone. -/
theorem between_wanted_perm (recorded bound : List String) {wanted' : List String}
    (h : wanted.Perm wanted') :
    (between recorded wanted bound).toAdd.Perm (between recorded wanted' bound).toAdd ∧
      (between recorded wanted bound).toRemove = (between recorded wanted' bound).toRemove := by
  constructor
  · refine (List.perm_ext_iff_of_nodup nodup_toAdd nodup_toAdd).mpr fun ip => ?_
    rw [mem_toAdd, mem_toAdd, h.mem_iff]
  · have hcontains : ∀ ip, wanted.contains ip = wanted'.contains ip := fun ip => h.contains_eq
    simp only [between, hcontains]

/-- The order of the record and its duplicates do not count. -/
theorem between_recorded_congr (h : ∀ ip, ip ∈ recorded' ↔ ip ∈ recorded) :
    between recorded' wanted bound = between recorded wanted bound := by
  have hcontains : ∀ ip, recorded'.contains ip = recorded.contains ip := fun ip => by
    rw [Bool.eq_iff_iff, List.contains_iff_mem, List.contains_iff_mem, h]
  simp only [between, hcontains]

/-- Of what is bound only what is recorded or wanted counts. -/
theorem between_filter_bound {p : String → Bool} (hrecorded : ∀ ip ∈ recorded, p ip = true)
    (hwanted : ∀ ip ∈ wanted, p ip = true) :
    between recorded wanted (bound.filter p) = between recorded wanted bound := by
  have hadds : wanted.filter (fun ip => !(bound.filter p).contains ip) =
      wanted.filter (fun ip => !bound.contains ip) := by
    refine List.filter_congr fun ip hip => congrArg (! ·) ?_
    rw [Bool.eq_iff_iff, List.contains_iff_mem, List.contains_iff_mem, List.mem_filter]
    exact and_iff_left (hwanted ip hip)
  have hremoves : (bound.filter p).filter (fun ip => recorded.contains ip && !wanted.contains ip) =
      bound.filter (fun ip => recorded.contains ip && !wanted.contains ip) := by
    rw [List.filter_filter]
    refine List.filter_congr fun ip _ => Bool.and_eq_left_iff_imp.mpr fun howned => ?_
    exact hrecorded ip (List.contains_iff_mem.mp (Bool.and_eq_true_iff.mp howned).1)
  simp only [between, hadds, hremoves]

/-- What failed of a difference, in the order in which it was tried. -/
structure FailedOf (failed d : AddressDiff) : Prop where
  toAdd : failed.toAdd.Sublist d.toAdd
  toRemove : failed.toRemove.Sublist d.toRemove

/-- What is recorded then: what is wanted without what could not be added, and what could not be
removed. -/
def record (failed : AddressDiff) (wanted : List String) : List String :=
  wanted.filter (fun ip => !failed.toAdd.contains ip) ++ failed.toRemove

/-- Whether a bound address stays: it does unless it was removed. -/
def stays (d failed : AddressDiff) (ip : String) : Bool :=
  !d.toRemove.contains ip || failed.toRemove.contains ip

/-- What is bound after a difference was carried out but for what failed. What was added may stand
anywhere among what stayed. -/
structure Leaves (d failed : AddressDiff) (bound bound' : List String) : Prop where
  stayed : bound'.filter (bound.contains ·) = bound.filter (stays d failed)
  added (ip : String) : ip ∉ bound → (ip ∈ bound' ↔ ip ∈ d.toAdd ∧ ip ∉ failed.toAdd)

/-- What is bound then, if what is added comes last. -/
def after (d failed : AddressDiff) (bound : List String) : List String :=
  bound.filter (stays d failed) ++ d.toAdd.filter fun ip => !failed.toAdd.contains ip

theorem leaves_after (hd : ∀ ip ∈ d.toAdd, ip ∉ bound) (failed : AddressDiff) :
    d.Leaves failed bound (d.after failed bound) where
  stayed := by
    have hold : (bound.filter (stays d failed)).filter (bound.contains ·) =
        bound.filter (stays d failed) :=
      List.filter_eq_self.mpr fun ip hip => by simpa using (List.mem_filter.mp hip).1
    have hnew : (d.toAdd.filter fun ip => !failed.toAdd.contains ip).filter (bound.contains ·) =
        [] :=
      List.filter_eq_nil_iff.mpr fun ip hip => by simpa using hd ip (List.mem_filter.mp hip).1
    rw [after, List.filter_append, hold, hnew, List.append_nil]
  added ip hip := by simp [after, hip]

namespace Leaves

theorem mem_of_bound (h : d.Leaves failed bound bound') (hip : ip ∈ bound) :
    ip ∈ bound' ↔ ip ∉ d.toRemove ∨ ip ∈ failed.toRemove := by
  have hmem : ip ∈ bound'.filter (bound.contains ·) ↔ ip ∈ bound.filter (stays d failed) := by
    rw [h.stayed]
  simpa [stays, hip] using hmem

/-- What is wanted and not bound now is what could not be added. -/
theorem missing_iff (h : (between recorded wanted bound).Leaves failed bound bound')
    (hip : ip ∈ wanted) : ip ∉ bound ∧ ip ∈ failed.toAdd ↔ ip ∉ bound' := by
  by_cases hbound : ip ∈ bound
  · have hstays : ip ∉ (between recorded wanted bound).toRemove := fun hremove =>
      (mem_toRemove.mp hremove).2.2 hip
    have hbound' : ip ∈ bound' := (h.mem_of_bound hbound).mpr (.inl hstays)
    simp [hbound, hbound']
  · have hadd : ip ∈ (between recorded wanted bound).toAdd := mem_toAdd.mpr ⟨hip, hbound⟩
    simp [hbound, h.added ip hbound, hadd]

theorem toAdd_eq (h : (between recorded wanted bound).Leaves failed bound bound')
    (hfailed : failed.FailedOf (between recorded wanted bound)) :
    (between (failed.record wanted) wanted bound').toAdd = failed.toAdd := by
  have hadds := firstsOf_toAdd recorded wanted bound
  have hpart := hadds.filter (failed.toAdd.contains ·)
  rw [filter_mem_of_sublist hfailed.toAdd nodup_toAdd] at hpart
  refine (firstsOf_toAdd _ wanted bound').unique (hpart.congr fun ip hip => ?_)
  rw [List.contains_iff_mem]
  exact h.missing_iff hip

/-- What is recorded and not wanted now is what could not be removed. -/
theorem owned_iff (hfailed : failed.FailedOf (between recorded wanted bound)) :
    ip ∈ failed.record wanted ∧ ip ∉ wanted ↔ ip ∈ failed.toRemove := by
  have hunwanted : ip ∈ failed.toRemove → ip ∉ wanted := fun hip =>
    (mem_toRemove.mp (hfailed.toRemove.subset hip)).2.2
  rw [record, List.mem_append, List.mem_filter]
  constructor
  · rintro ⟨⟨hwanted, -⟩ | hremove, hnot⟩
    · exact absurd hwanted hnot
    · exact hremove
  · intro hremove
    exact ⟨.inr hremove, hunwanted hremove⟩

theorem toRemove_eq (h : (between recorded wanted bound).Leaves failed bound bound')
    (hfailed : failed.FailedOf (between recorded wanted bound)) :
    (between (failed.record wanted) wanted bound').toRemove = failed.toRemove := by
  have hbound : ∀ ip ∈ failed.toRemove, ip ∈ bound := fun ip hip =>
    (mem_toRemove.mp (hfailed.toRemove.subset hip)).1
  have howned : bound'.filter (fun ip =>
      (failed.record wanted).contains ip && !wanted.contains ip) =
        (bound'.filter (bound.contains ·)).filter (failed.toRemove.contains ·) := by
    rw [List.filter_filter]
    refine List.filter_congr fun ip _ => ?_
    rw [Bool.eq_iff_iff]
    simpa using (owned_iff hfailed).trans (and_iff_left_of_imp (hbound ip)).symm
  have hstays : (bound.filter (stays (between recorded wanted bound) failed)).filter
      (failed.toRemove.contains ·) = bound.filter (failed.toRemove.contains ·) := by
    rw [List.filter_filter]
    refine List.filter_congr fun ip _ => ?_
    rw [Bool.and_eq_left_iff_imp, List.contains_iff_mem]
    intro hip
    simp [stays, hip]
  show (bound'.filter _).eraseDups = _
  rw [howned, h.stayed, hstays]
  exact eraseDups_filter_mem (hfailed.toRemove.trans toRemove_sublist)

end Leaves

/-- A difference adds what is wanted and not bound and removes what is bound, recorded and not
wanted, each once and in the order of first places. Of the record only what it holds counts. After
any part of the difference failed the next difference is that part. -/
theorem between_exact (recorded wanted bound : List String) :
    (∀ adds, FirstsOf wanted (· ∉ bound) adds ↔
      adds = (between recorded wanted bound).toAdd) ∧
    (∀ removes, FirstsOf bound (fun ip => ip ∈ recorded ∧ ip ∉ wanted) removes ↔
      removes = (between recorded wanted bound).toRemove) ∧
    (∀ recorded', (∀ ip, ip ∈ recorded' ↔ ip ∈ recorded) →
      between recorded' wanted bound = between recorded wanted bound) ∧
    ∀ failed bound', failed.FailedOf (between recorded wanted bound) →
      (between recorded wanted bound).Leaves failed bound bound' →
        between (failed.record wanted) wanted bound' = failed := by
  refine ⟨fun adds => (firstsOf_toAdd recorded wanted bound).iff_eq,
    fun removes => (firstsOf_toRemove recorded wanted bound).iff_eq,
    fun recorded' h => between_recorded_congr h, fun failed bound' hfailed h => ?_⟩
  exact congrArg₂ AddressDiff.mk (h.toAdd_eq hfailed) (h.toRemove_eq hfailed)

/-- Of two additions and two removals the first addition and the second removal worked. -/
def halfDone : AddressDiff := ⟨["10.0.0.9"], ["10.0.0.5"]⟩

theorem halfDone_retried :
    (∀ ip, ip ∈ ["10.0.0.5", "10.0.0.7", "10.0.0.5"] ↔ ip ∈ ["10.0.0.7", "10.0.0.5"]) ∧
    between ["10.0.0.5", "10.0.0.7", "10.0.0.5"] ["10.0.0.6", "10.0.0.9", "10.0.0.6"]
        ["10.0.0.99", "10.0.0.5", "10.0.0.7"] =
      ⟨["10.0.0.6", "10.0.0.9"], ["10.0.0.5", "10.0.0.7"]⟩ ∧
    halfDone.FailedOf ⟨["10.0.0.6", "10.0.0.9"], ["10.0.0.5", "10.0.0.7"]⟩ ∧
    between ["10.0.0.6", "10.0.0.6", "10.0.0.5"] ["10.0.0.6", "10.0.0.9", "10.0.0.6"]
      ["10.0.0.99", "10.0.0.5", "10.0.0.6"] = halfDone := by
  obtain ⟨-, -, hset, hretry⟩ := between_exact ["10.0.0.7", "10.0.0.5"]
    ["10.0.0.6", "10.0.0.9", "10.0.0.6"] ["10.0.0.99", "10.0.0.5", "10.0.0.7"]
  have hsame : ∀ ip, ip ∈ ["10.0.0.5", "10.0.0.7", "10.0.0.5"] ↔
      ip ∈ ["10.0.0.7", "10.0.0.5"] := by
    intro ip
    simp only [List.mem_cons, List.not_mem_nil, or_false]
    tauto
  have hbetween : between ["10.0.0.7", "10.0.0.5"] ["10.0.0.6", "10.0.0.9", "10.0.0.6"]
      ["10.0.0.99", "10.0.0.5", "10.0.0.7"] =
        ⟨["10.0.0.6", "10.0.0.9"], ["10.0.0.5", "10.0.0.7"]⟩ := by decide
  have hfailed : halfDone.FailedOf ⟨["10.0.0.6", "10.0.0.9"], ["10.0.0.5", "10.0.0.7"]⟩ :=
    ⟨by decide, by decide⟩
  rw [hbetween] at hset hretry
  refine ⟨hsame, hset _ hsame, hfailed, hretry halfDone _ hfailed ?_⟩
  exact leaves_after (by decide) halfDone

end ForwardedIp.AddressDiff
