import ForwardedIp.Proofs.CleanVisits
import ForwardedIp.Proofs.Differences
/-!
# A visit after a visit

A visit that finds what an earlier visit of the same declared interface left tries again what was
refused to that one, and nothing else: what is wanted and not bound is what could not be bound, and
what is recorded, bound and not wanted is what could not be unbound. Both come in the order in
which they were tried before.
-/
namespace ForwardedIp

open MemorySite

namespace Visit
open Attempt

theorem Tries.refusals_sublist {N : Type} {act : IpAddr → StateM N (Except Fault Unit)}
    {texts : List String} {n n' : N} {attempts : List Attempt}
    (h : Tries act texts n attempts n') : (refusals attempts).Sublist texts := by
  rw [← h.map_ip]
  exact List.filter_sublist.map _

namespace Reconciliation
variable {N : Type} [Site N] {live live' : List LiveInterface} {d d' : DeclaredInterface}
  {n n' n₁ n₁' : N} {w w' : Work} {t : String} {x : LiveAddress}

/-- What a visit records without wanting it is what it was refused to unbind. -/
theorem mem_refusals_unbinds (r : Reconciliation live d n w n') :
    t ∈ refusals w.unbinds ↔ t ∈ w.next ∧ t ∉ w.wanted := by
  rw [mem_refusals, r.mem_next]
  constructor
  · rintro ⟨a, ha, hfailed, rfl⟩
    exact ⟨.inr ⟨a, ha, hfailed, rfl⟩, (r.unbind_mem ha).2.2⟩
  · rintro ⟨⟨hwanted, -⟩ | hrefused, hunwanted⟩
    · exact absurd hwanted hunwanted
    · exact hrefused

variable [MemorySite N]

theorem bound_texts (r : Reconciliation live d n w n') :
    w.bound = (bound n w.iface.index).map LiveAddress.text := by
  rw [r.bound_eq, addresses_ok r.addresses_run]

/-- What is wanted is bound after a visit exactly if it was not refused. -/
theorem mem_refusals_binds (r : Reconciliation live d n w n') (hprinted : Printed d.forwardedIps)
    (ht : t ∈ w.wanted) :
    t ∈ refusals w.binds ↔ t ∉ (bound n' w.iface.index).map LiveAddress.text := by
  obtain ⟨ip, hip⟩ := r.wanted_ip ht
  have htext : t = ip.text := hprinted t (r.mem_wanted.mp ht).1 ip hip
  constructor
  · intro hrefused hafter
    obtain ⟨a, ha, hfailed, rfl⟩ := mem_refusals.mp hrefused
    obtain ⟨x, hx, hxtext⟩ := List.mem_map.mp hafter
    rcases (r.mem_bound.mp hx).1 with hbefore | ⟨b, hb, other, hdid, rfl⟩
    · exact (r.bind_mem ha).2 (r.mem_bound_text.mpr ⟨x, hbefore, hxtext⟩)
    · rw [LiveAddress.text_host] at hxtext
      have heq : a = b :=
        r.bind_unique ha hb (hxtext.symm.trans (r.bind_printed hprinted hb hdid.1).symm)
      subst heq
      rw [failed_eq_false.mpr hdid.2] at hfailed
      cases hfailed
  · intro hafter
    by_contra hgranted
    have hadded : ∀ a ∈ w.binds, a.ip = t → a.failed = false := by
      intro a ha hat
      rw [← Bool.not_eq_true]
      exact fun hfailed => hgranted (mem_refusals.mpr ⟨a, ha, hfailed, hat⟩)
    have hkept : ∀ a ∈ w.unbinds, ¬ a.Did ip := by
      intro a ha hdid
      obtain ⟨-, -, -, hunwanted⟩ := r.unbind_printed ha hdid.1
      exact hunwanted (htext ▸ ht)
    have hhost := (r.host_bound_iff (r.wanted_bound ht hadded hip)).mpr hkept
    exact hafter (List.mem_map.mpr ⟨.host ip, hhost, htext ▸ LiveAddress.text_host ip⟩)

theorem spare_of_refused (r : Reconciliation live d n w n') (hx : x.text ∈ refusals w.unbinds) :
    spare w.unbinds x = true := by
  obtain ⟨a, ha, hfailed, htext⟩ := mem_refusals.mp hx
  obtain ⟨ip, hip⟩ := r.recorded_ip (r.unbind_mem ha).2.1
  have hhost : x = .host ip := LiveAddress.parse?_text.mp (htext ▸ hip)
  subst hhost
  rw [spare_eq_true]
  intro b hb hdid
  have heq : b = a := r.unbind_unique hb ha <|
    (r.unbind_printed hb hdid.1).1.trans (r.unbind_printed ha hip).1.symm
  subst heq
  rw [failed_eq_false.mpr hdid.2] at hfailed
  cases hfailed

/-- What a visit was refused to unbind is bound after it where it was before. -/
theorem refused_still_bound (r : Reconciliation live d n w n') (hprinted : Printed d.forwardedIps) :
    ((bound n' w.iface.index).map LiveAddress.text).filter ((refusals w.unbinds).contains ·) =
      w.bound.filter ((refusals w.unbinds).contains ·) := by
  have hnew : ∀ x ∈ w.binds.filterMap bound?,
      ¬ ((refusals w.unbinds).contains x.text && spare w.unbinds x) = true := by
    intro x hx hboth
    obtain ⟨a, ha, hsome⟩ := List.mem_filterMap.mp hx
    obtain ⟨ip, hdid, rfl⟩ := bound?_eq_some.mp hsome
    rw [Bool.and_eq_true, List.contains_iff_mem, LiveAddress.text_host,
      ← r.bind_printed hprinted ha hdid.1] at hboth
    exact (r.mem_refusals_unbinds.mp hboth.1).2 (r.bind_mem ha).1
  have hold : ∀ x ∈ bound n w.iface.index,
      ((refusals w.unbinds).contains x.text && spare w.unbinds x) =
        (refusals w.unbinds).contains x.text := by
    intro x hx
    rw [Bool.and_eq_left_iff_imp, List.contains_iff_mem]
    exact r.spare_of_refused
  rw [r.bound_texts, r.bound_after, List.filter_map, List.filter_map, List.filter_filter,
    List.filter_append]
  simp only [Function.comp_apply]
  rw [List.filter_congr hold, List.filter_eq_nil_iff.mpr hnew, List.append_nil]
  rfl

/-- One visit comes after another of the same declared interface, and finds what that one left. -/
structure Follows (r' : Reconciliation live' d' n₁ w' n₁') (r : Reconciliation live d n w n') :
    Prop where
  declared_eq : d' = d
  iface_eq : w'.iface = w.iface
  bound_eq : bound n₁ w.iface.index = bound n' w.iface.index
  recorded : ∀ t, t ∈ w'.recorded ↔ t ∈ w.next

variable {r' : Reconciliation live' d' n₁ w' n₁'} {r : Reconciliation live d n w n'}

theorem Follows.bound_texts (h : r'.Follows r) :
    w'.bound = (bound n' w.iface.index).map LiveAddress.text := by
  rw [r'.bound_texts, h.iface_eq, h.bound_eq]

theorem Follows.wanted_eq (h : r'.Follows r) : w'.wanted = w.wanted := by
  rw [r'.wanted_eq, r.wanted_eq, h.declared_eq]

/-- A visit tries to bind what was refused to be bound in the visit before. -/
theorem Follows.map_ip_binds (h : r'.Follows r) (hprinted : Printed d.forwardedIps) :
    w'.binds.map (·.ip) = refusals w.binds := by
  have hunbound : w.wanted.filter (fun t => !w'.bound.contains t) =
      w.wanted.filter ((refusals w.binds).contains ·) := by
    refine List.filter_congr fun t ht => ?_
    rw [Bool.eq_iff_iff, Bool.not_eq_true', ← Bool.not_eq_true, List.contains_iff_mem,
      List.contains_iff_mem, r.mem_refusals_binds hprinted ht, h.bound_texts]
  rw [r'.binds_run.map_ip, AddressDiff.between, h.wanted_eq, hunbound]
  exact eraseDups_filter_mem
    (r.binds_run.refusals_sublist.trans AddressDiff.toAdd_sublist)

/-- A visit tries to unbind what was refused to be unbound in the visit before. -/
theorem Follows.map_ip_unbinds (h : r'.Follows r) (hprinted : Printed d.forwardedIps) :
    w'.unbinds.map (·.ip) = refusals w.unbinds := by
  have howned : w'.bound.filter (fun t => w'.recorded.contains t && !w.wanted.contains t) =
      w'.bound.filter ((refusals w.unbinds).contains ·) := by
    refine List.filter_congr fun t ht => ?_
    rw [Bool.eq_iff_iff, Bool.and_eq_true, Bool.not_eq_true', ← Bool.not_eq_true,
      List.contains_iff_mem, List.contains_iff_mem, List.contains_iff_mem, r.mem_refusals_unbinds,
      h.recorded]
  rw [r'.unbinds_run.map_ip, AddressDiff.between, h.wanted_eq, howned, h.bound_texts,
    r.refused_still_bound hprinted]
  exact eraseDups_filter_mem
    (r.unbinds_run.refusals_sublist.trans AddressDiff.toRemove_sublist)

end Reconciliation
end Visit
end ForwardedIp
