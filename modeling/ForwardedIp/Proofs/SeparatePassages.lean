import Mathlib.Data.List.Nodup
import ForwardedIp.Proofs.Remembrance
/-!
# Passages that do not meet

A passage changes at most the record of one hardware address and what is bound at one index. If no
two declared interfaces of a pass have the same hardware address, or are matched by live ones of
the same index, every passage finds its interface as the pass found it, and the pass leaves it as
the passage did.
-/
namespace ForwardedIp

open RecordedSite MemorySite

/-- A declared interface has a hardware address, and a live interface is the first one with it. -/
structure DeclaredInterface.MatchedBy (live : List LiveInterface) (d : DeclaredInterface)
    (mac : Mac) (iface : LiveInterface) : Prop where
  mac_eq : Mac.parse? d.mac = some mac
  iface_eq : Visit.matching? live mac = some iface

/-- No two declared interfaces have the same hardware address. -/
def DistinctMacs (ds : List DeclaredInterface) : Prop :=
  ds.Pairwise fun d d' => ∀ mac, Mac.parse? d.mac = some mac → Mac.parse? d'.mac ≠ some mac

instance (ds : List DeclaredInterface) : Decidable (DistinctMacs ds) :=
  decidable_of_iff (ds.Pairwise fun d d' =>
      Mac.parse? d.mac = none ∨ Mac.parse? d.mac ≠ Mac.parse? d'.mac) <| by
    refine List.Pairwise.iff fun d d' => ?_
    cases Mac.parse? d.mac with
    | none => simp
    | some mac => simp [@eq_comm _ (some mac)]

/-- No two declared interfaces have the same hardware address, or are matched by live interfaces of
the same index. -/
structure Separate (live : List LiveInterface) (ds : List DeclaredInterface) : Prop where
  macs : DistinctMacs ds
  indexes : ds.Pairwise fun d d' => ∀ mac mac' iface iface', d.MatchedBy live mac iface →
    d'.MatchedBy live mac' iface' → iface.index ≠ iface'.index

variable {live : List LiveInterface} {d d' : DeclaredInterface} {ds : List DeclaredInterface}
  {mac mac' : Mac} {iface iface' : LiveInterface}

namespace DeclaredInterface.MatchedBy

theorem unique (h : d.MatchedBy live mac iface) (h' : d.MatchedBy live mac' iface') :
    mac = mac' ∧ iface = iface' := by
  have hmac : mac = mac' := Option.some.inj (h.mac_eq.symm.trans h'.mac_eq)
  subst hmac
  exact ⟨rfl, Option.some.inj (h.iface_eq.symm.trans h'.iface_eq)⟩

theorem mem_live (h : d.MatchedBy live mac iface) : iface ∈ live :=
  (Visit.mem_of_matching? h.iface_eq).1

theorem iface_mac (h : d.MatchedBy live mac iface) : iface.mac = some mac :=
  (Visit.mem_of_matching? h.iface_eq).2

end DeclaredInterface.MatchedBy

namespace DistinctMacs

theorem exclusion (h : DistinctMacs ds) (s : Settings) : DistinctMacs (Exclusion.apply s ds) :=
  List.pairwise_map.mpr h

/-- Interfaces of distinct indexes keep declared interfaces of distinct hardware addresses apart. -/
theorem separate (h : DistinctMacs ds) (hindexes : (live.map (·.index)).Nodup) :
    Separate live ds where
  macs := h
  indexes := by
    refine h.imp fun {d d'} hne mac mac' iface iface' hmatch hmatch' hindex => ?_
    have hiface : iface = iface' :=
      List.inj_on_of_nodup_map hindexes hmatch.mem_live hmatch'.mem_live hindex
    subst hiface
    have hmac : mac' = mac := Option.some.inj (hmatch'.iface_mac.symm.trans hmatch.iface_mac)
    subst hmac
    exact hne mac' hmatch.mac_eq hmatch'.mac_eq

end DistinctMacs

theorem Separate.exclusion (h : Separate live ds) (s : Settings) :
    Separate live (Exclusion.apply s ds) where
  macs := h.macs.exclusion s
  indexes := List.pairwise_map.mpr <| h.indexes.imp fun hne mac mac' iface iface' hmatch hmatch' =>
    hne mac mac' iface iface' ⟨hmatch.mac_eq, hmatch.iface_eq⟩ ⟨hmatch'.mac_eq, hmatch'.iface_eq⟩

namespace Passage
variable {N : Type} [Site N] {n n' : N} {p : Passage N} {ps : List (Passage N)}

theorem map_declared_ofVisits (live : List LiveInterface) (ds : List DeclaredInterface) (n : N) :
    (ofVisits live ds n).map (·.declared) = ds := by
  induction ds generalizing n with
  | nil => rfl
  | cons d ds ih => exact congrArg (d :: ·) (ih _)

theorem map_visit_ofVisits (live : List LiveInterface) (ds : List DeclaredInterface) (n : N) :
    (ofVisits live ds n).map (·.visit) = ((ds.mapM (Visit.run live)).run n).1 := by
  induction ds generalizing n with
  | nil => rfl
  | cons d ds ih =>
    rw [List.mapM_cons]
    exact congrArg (((Visit.run live d).run n).1 :: ·) (ih _)

theorem map_declared_ofPass {live : List LiveInterface} {n₁ : N} (ds : List DeclaredInterface)
    (h : Site.interfaces.run n = (.ok live, n₁)) : (ofPass ds n).map (·.declared) = ds := by
  rw [ofPass, h]
  exact map_declared_ofVisits live ds n₁

variable [MemorySite N] {key : String} {index : Nat}

theorem live_of_mem_ofPass (hp : p ∈ ofPass ds n) : p.live = listed n := by
  obtain ⟨-, n', hlisted⟩ := mem_ofPass hp
  exact interfaces_ok hlisted

/-- A passage has nothing to do with a key and an index. -/
def Avoids (key : String) (index : Nat) (p : Passage N) : Prop :=
  ∀ mac iface, p.declared.MatchedBy p.live mac iface → key ≠ mac.text ∧ index ≠ iface.index

theorem Goes.elsewhere (g : p.Goes) (havoids : p.Avoids key index) :
    record p.after key = record p.before key ∧ bound p.after index = bound p.before index := by
  rcases Visit.Goes.unchanged_or_reconciled g with ⟨hrecord, hbound⟩ | ⟨w, r, -⟩
  · exact ⟨by rw [hrecord], by rw [hbound]⟩
  · obtain ⟨hkey, hindex⟩ := havoids w.mac w.iface ⟨r.mac_eq, r.iface_eq⟩
    exact ⟨r.record_of_ne hkey, r.bound_of_ne hindex⟩

theorem Chain.elsewhere (h : Chain SameState n ps n') (havoids : ∀ p ∈ ps, p.Avoids key index) :
    record n' key = record n key ∧ bound n' index = bound n index := by
  induction h with
  | nil hlast => exact ⟨by rw [hlast.record_eq], by rw [hlast.bound_eq]⟩
  | cons hfirst hgoes rest ih =>
    obtain ⟨hp, hps⟩ := List.forall_mem_cons.mp havoids
    obtain ⟨hrecord, hbound⟩ := hgoes.elsewhere hp
    obtain ⟨hrecords, hbounds⟩ := ih hps
    exact ⟨by rw [hrecords, hrecord, hfirst.record_eq], by rw [hbounds, hbound, hfirst.bound_eq]⟩

/-- Between two states a passage is the only one that has to do with an interface. -/
structure Alone (p : Passage N) (mac : Mac) (iface : LiveInterface) (n n' : N) : Prop where
  goes : p.Goes
  record_before : record p.before mac.text = record n mac.text
  bound_before : bound p.before iface.index = bound n iface.index
  record_after : record n' mac.text = record p.after mac.text
  bound_after : bound n' iface.index = bound p.after iface.index

theorem Alone.precede {n₁ : N} (h : p.Alone mac iface n₁ n') (hsame : SameState n n₁) :
    p.Alone mac iface n n' where
  goes := h.goes
  record_before := by rw [h.record_before, hsame.record_eq]
  bound_before := by rw [h.bound_before, hsame.bound_eq]
  record_after := h.record_after
  bound_after := h.bound_after

theorem alone_of_mem_ofVisits (hseparate : Separate live ds) (hp : p ∈ ofVisits live ds n)
    (hmatch : p.declared.MatchedBy live mac iface) :
    p.Alone mac iface n ((ds.mapM (Visit.run live)).run n).2 := by
  obtain ⟨earlier, later, hsplit⟩ := List.append_of_mem hp
  have hlive : ∀ q ∈ earlier ++ p :: later, q.live = live := fun q hq =>
    (mem_ofVisits (hsplit ▸ hq)).1
  have hdeclared : ds = (earlier ++ p :: later).map (·.declared) := by
    rw [← hsplit, map_declared_ofVisits]
  obtain ⟨hmacs, hindexes⟩ := hseparate
  rw [DistinctMacs, hdeclared, List.pairwise_map, List.pairwise_append, List.pairwise_cons] at hmacs
  rw [hdeclared, List.pairwise_map, List.pairwise_append, List.pairwise_cons] at hindexes
  obtain ⟨-, ⟨hmacAfter, -⟩, hmacBefore⟩ := hmacs
  obtain ⟨-, ⟨hindexAfter, -⟩, hindexBefore⟩ := hindexes
  have hearlier : ∀ q ∈ earlier, q.Avoids mac.text iface.index := by
    intro q hq mac' iface' hmatch'
    rw [hlive q (List.mem_append_left _ hq)] at hmatch'
    refine ⟨fun hkey => ?_, fun hindex => ?_⟩
    · cases Mac.text_injective hkey
      exact hmacBefore q hq p List.mem_cons_self mac hmatch'.mac_eq hmatch.mac_eq
    · exact hindexBefore q hq p List.mem_cons_self mac' mac iface' iface hmatch' hmatch hindex.symm
  have hlater : ∀ q ∈ later, q.Avoids mac.text iface.index := by
    intro q hq mac' iface' hmatch'
    rw [hlive q (List.mem_append_right _ (List.mem_cons_of_mem p hq))] at hmatch'
    refine ⟨fun hkey => ?_, fun hindex => ?_⟩
    · cases Mac.text_injective hkey
      exact hmacAfter q hq mac hmatch.mac_eq hmatch'.mac_eq
    · exact hindexAfter q hq mac mac' iface iface' hmatch hmatch' hindex
  -- So the passages before and after it leave the record and what is bound as they are.
  have hchain := chain_ofVisits between_sameState live ds n
  rw [hsplit] at hchain
  obtain ⟨hbefore, hgoes, hafter⟩ := hchain.split
  obtain ⟨hrecord, hbound⟩ := hbefore.elsewhere hearlier
  obtain ⟨hrecord', hbound'⟩ := hafter.elsewhere hlater
  exact ⟨hgoes, hrecord, hbound, hrecord', hbound'⟩

end Passage

namespace Engine
variable {e : Engine} {s : Snapshot}

/-- The passage of a matched interface is alone with it in a pass that keeps its interfaces
apart. -/
theorem Applies.alone {N : Type} [Site N] [MemorySite N] {n n' : N} {p : Passage N}
    {step : Step (Except Fault Report)} (h : Applies e s n step n')
    (hseparate : Separate (listed n) (e.declaration s))
    (hp : p ∈ Passage.ofPass (e.declaration s) n) (hmatch : p.declared.MatchedBy p.live mac iface) :
    p.Alone mac iface n n' := by
  rw [Passage.live_of_mem_ofPass hp] at hmatch
  unfold Passage.ofPass at hp
  cases h with
  | unlisted hlisted =>
    rw [hlisted] at hp
    cases hp
  | @visited live visits n₁ n' hlisted hvisits =>
    rw [hlisted] at hp
    rw [← interfaces_ok hlisted] at hseparate hmatch
    have halone := Passage.alone_of_mem_ofVisits hseparate hp hmatch
    rw [hvisits] at halone
    exact halone.precede (Passage.between_sameState.listed hlisted)

theorem printed_declaration (hprinted : s.Printed) :
    ∀ d ∈ e.declaration s, Printed d.forwardedIps :=
  fun _ hd => Exclusion.printed_of_mem_apply hprinted hd

theorem separate_declaration (h : Separate live s.interfaces) :
    Separate live (e.declaration s) := h.exclusion (e.settings s)

end Engine
end ForwardedIp
