import ForwardedIp.Proofs.FailoverAddresses
import ForwardedIp.Proofs.FixedFiles
import ForwardedIp.Proofs.FixedVisits
/-!
# The order of a declaration does not matter

If the same operations fail all the time, a pass over interfaces that have nothing to do with each
other does on each of them what it would do there alone. So the order of the declared interfaces
does not matter. Nor do the order and the repetitions of their forwarded addresses, but for the
order in which addresses get bound and recorded. The ledger may be in memory or in a file.
-/
namespace ForwardedIp

open RecordedLedger

/-- The bad hardware addresses that are told of a visit. -/
def Visit.badMacs : Visit → List String
  | .unparseable raw | .unmatched raw _ => [raw]
  | _ => []

/-- What stands for the bad forwarded addresses that are told of a visit. -/
def Visit.badIps : Visit → List String
  | .reconciled w => w.rejected.map (Notices.ipKey w.mac)
  | _ => []

namespace Notices
variable {n : Notices} {raw : String}

theorem tellAll_badIp (n : Notices) (mac : Mac) (ips : List String) :
    (tellAll (fun n => n.badIp mac) n ips).2.macs = n.macs ∧
      ∀ raw, (tellAll (fun n => n.badIp mac) n ips).2.ips.contains raw = true ↔
        n.ips.contains raw = true ∨ raw ∈ ips.map (ipKey mac) := by
  rw [tellAll_snd]
  induction ips generalizing n with
  | nil => simp
  | cons ip ips ih =>
    obtain ⟨hmacs, hips⟩ := ih (n.badIp mac ip).2
    have hfirst : (n.badIp mac ip).2.macs = n.macs ∧
        (n.badIp mac ip).2.ips = n.ips.insert (ipKey mac ip) := ⟨rfl, rfl⟩
    refine ⟨hmacs.trans hfirst.1, fun raw => ?_⟩
    rw [List.foldl_cons, hips raw, hfirst.2, BadInputSet.contains_insert, List.map_cons,
      List.mem_cons, Bool.or_eq_true, beq_iff_eq, or_assoc]

theorem tell_contains (n : Notices) (v : Visit) (raw : String) :
    ((n.tell v).2.macs.contains raw = true ↔ n.macs.contains raw = true ∨ raw ∈ v.badMacs) ∧
      ((n.tell v).2.ips.contains raw = true ↔ n.ips.contains raw = true ∨ raw ∈ v.badIps) := by
  cases v with
  | unparseable bad => simp [tell, badMac, BadInputSet.firstReport, Visit.badMacs, Visit.badIps]
  | unmatched bad mac => simp [tell, badMac, BadInputSet.firstReport, Visit.badMacs, Visit.badIps]
  | unreadable mac iface fault => simp [tell, Visit.badMacs, Visit.badIps]
  | unrecorded mac iface fault => simp [tell, Visit.badMacs, Visit.badIps]
  | reconciled w =>
    obtain ⟨hmacs, hips⟩ := tellAll_badIp n w.mac w.rejected
    have htell : (n.tell (.reconciled w)).2 =
        (tellAll (fun n => n.badIp w.mac) n w.rejected).2 := rfl
    rw [htell, hmacs]
    exact ⟨by simp [Visit.badMacs], hips raw⟩

/-- What is remembered of bad input after visits. -/
theorem tellAll_contains (n : Notices) (vs : List Visit) (raw : String) :
    ((tellAll tell n vs).2.macs.contains raw = true ↔
      n.macs.contains raw = true ∨ ∃ v ∈ vs, raw ∈ v.badMacs) ∧
    ((tellAll tell n vs).2.ips.contains raw = true ↔
      n.ips.contains raw = true ∨ ∃ v ∈ vs, raw ∈ v.badIps) := by
  rw [tellAll_snd]
  induction vs generalizing n with
  | nil => simp
  | cons v vs ih =>
    obtain ⟨hmacs, hips⟩ := tell_contains n v raw
    obtain ⟨hmacs', hips'⟩ := ih (n.tell v).2
    rw [List.foldl_cons, hmacs', hips', hmacs, hips]
    simp only [List.mem_cons, exists_eq_or_imp, or_assoc, and_self]

/-- The same bad input is remembered. -/
def Same (n n' : Notices) : Prop :=
  ∀ raw, n.macs.contains raw = n'.macs.contains raw ∧ n.ips.contains raw = n'.ips.contains raw

theorem tellAll_perm (n : Notices) {vs vs' : List Visit} (h : vs.Perm vs') :
    (tellAll tell n vs).2.Same (tellAll tell n vs').2 := by
  intro raw
  obtain ⟨hmacs, hips⟩ := tellAll_contains n vs raw
  obtain ⟨hmacs', hips'⟩ := tellAll_contains n vs' raw
  simp only [h.mem_iff] at hmacs hips
  exact ⟨Bool.eq_iff_iff.mpr (hmacs.trans hmacs'.symm), Bool.eq_iff_iff.mpr (hips.trans hips'.symm)⟩

end Notices

section Pairs
variable {α β γ : Type} {R : α → β → Prop} {as : List α} {bs : List β}

theorem map_congr_of_forall₂ {f : α → γ} {g : β → γ}
    (h : List.Forall₂ (fun a b => f a = g b) as bs) : as.map f = bs.map g := by
  have hmapped : List.Forall₂ Eq (as.map f) (bs.map g) :=
    List.forall₂_map_left_iff.mpr (List.forall₂_map_right_iff.mpr h)
  rwa [List.forall₂_eq_eq_eq] at hmapped

theorem exists_of_forall₂ (h : List.Forall₂ R as bs) {a : α} (ha : a ∈ as) : ∃ b ∈ bs, R a b := by
  induction h with
  | nil => cases ha
  | @cons a' b as bs hab hrest ih =>
    rcases List.mem_cons.mp ha with rfl | ha
    · exact ⟨b, List.mem_cons_self, hab⟩
    · obtain ⟨b', hb', hpair⟩ := ih ha
      exact ⟨b', List.mem_cons_of_mem b hb', hpair⟩

end Pairs

namespace DistinctMacs
variable {ds ds' : List DeclaredInterface}

theorem perm (h : DistinctMacs ds) (hperm : ds.Perm ds') : DistinctMacs ds' :=
  hperm.pairwise h fun hne mac hmac hmac' => hne mac hmac' hmac

theorem sameAddresses (h : DistinctMacs ds)
    (hsame : List.Forall₂ DeclaredInterface.SameAddresses ds ds') : DistinctMacs ds' := by
  have hmacs : ds.map (·.mac) = ds'.map (·.mac) :=
    map_congr_of_forall₂ (hsame.imp fun d d' hd => hd.mac_eq)
  have hpairwise : (ds.map (·.mac)).Pairwise fun raw raw' =>
      ∀ mac, Mac.parse? raw = some mac → Mac.parse? raw' ≠ some mac := List.pairwise_map.mpr h
  rw [hmacs] at hpairwise
  exact List.pairwise_map.mp hpairwise

end DistinctMacs

section Passes
variable {L : Type} [LedgerStore L] [FixedLedger L] {live : List LiveInterface}
  {d : DeclaredInterface} {ds ds' : List DeclaredInterface} {mac : Mac} {iface : LiveInterface}
  {m : Machine MemoryHost L}

/-- Two machines agree in what is recorded and bound for a declared interface. -/
def DeclaredInterface.AgreeFor (live : List LiveInterface) (d : DeclaredInterface) :
    Machine MemoryHost L → Machine MemoryHost L → Prop :=
  Machine.Agree (fun key => ∃ mac iface, d.MatchedBy live mac iface ∧ key = mac.text)
    (fun index => ∃ mac iface, d.MatchedBy live mac iface ∧ index = iface.index)

/-- Visits of separate interfaces do not meet. -/
theorem Separate.independent (h : Separate live ds) :
    Independent (Visit.run (N := Machine MemoryHost L) live) (DeclaredInterface.AgreeFor live)
      ds where
  same d := Machine.agree_equivalence
  looksAt d hd := Visit.looksAt_run fun mac iface hmatch =>
    ⟨⟨mac, iface, hmatch, rfl⟩, ⟨mac, iface, hmatch, rfl⟩⟩
  leaves := by
    refine (h.macs.and h.indexes).imp fun {d d'} hapart => ?_
    obtain ⟨hmacs, hindexes⟩ := hapart
    constructor
    · refine Visit.leaves_run fun mac' iface' hmatch' => ⟨?_, ?_⟩
      · rintro ⟨mac, iface, hmatch, hkey⟩
        cases Mac.text_injective hkey
        exact hmacs _ hmatch.mac_eq hmatch'.mac_eq
      · rintro ⟨mac, iface, hmatch, hindex⟩
        exact hindexes mac mac' iface iface' hmatch hmatch' hindex.symm
    · refine Visit.leaves_run fun mac iface hmatch => ⟨?_, ?_⟩
      · rintro ⟨mac', iface', hmatch', hkey⟩
        cases Mac.text_injective hkey
        exact hmacs _ hmatch.mac_eq hmatch'.mac_eq
      · rintro ⟨mac', iface', hmatch', hindex⟩
        exact hindexes mac mac' iface iface' hmatch hmatch' hindex

/-- A pass over separate interfaces leaves each of them as a visit at the start would. -/
theorem Separate.after (h : Separate live ds) (hd : d ∈ ds) (hmatch : d.MatchedBy live mac iface)
    (m : Machine MemoryHost L) :
    ((ds.mapM (Visit.run live)).run m).2.host.addressesAt iface.index =
        ((Visit.run live d).run m).2.host.addressesAt iface.index ∧
      record ((ds.mapM (Visit.run live)).run m).2.ledger mac.text =
        record ((Visit.run live d).run m).2.ledger mac.text := by
  have hagree := h.independent.after hd m
  exact ⟨(hagree.bound_eq iface.index ⟨mac, iface, hmatch, rfl⟩).symm,
    (hagree.record_eq mac.text ⟨mac, iface, hmatch, rfl⟩).symm⟩

theorem bound_of_unmatched {index : Nat} (m : Machine MemoryHost L)
    (h : ∀ d ∈ ds, ∀ mac iface, d.MatchedBy live mac iface → iface.index ≠ index) :
    ((ds.mapM (Visit.run live)).run m).2.host.addressesAt index = m.host.addressesAt index := by
  have hleaves : Leaves (Machine.Agree (L := L) (fun _ => False) (· = index))
      (ds.mapM (Visit.run live)) := Leaves.mapM Machine.agree_equivalence fun d hd =>
    Visit.leaves_run fun mac iface hmatch => ⟨id, h d hd mac iface hmatch⟩
  exact ((hleaves m).bound_eq index rfl).symm

theorem record_of_unmatched {key : String} (m : Machine MemoryHost L)
    (h : ∀ d ∈ ds, ∀ mac iface, d.MatchedBy live mac iface → mac.text ≠ key) :
    record ((ds.mapM (Visit.run live)).run m).2.ledger key = record m.ledger key := by
  have hleaves : Leaves (Machine.Agree (L := L) (· = key) (fun _ => False))
      (ds.mapM (Visit.run live)) := Leaves.mapM Machine.agree_equivalence fun d hd =>
    Visit.leaves_run fun mac iface hmatch => ⟨h d hd mac iface hmatch, id⟩
  exact ((hleaves m).record_eq key rfl).symm

/-- Two declarations are about the same hardware addresses, and visits at the start of what they
declare for them compare. -/
structure Machine.Visited (P : List LiveAddress → List LiveAddress → Prop)
    (Q : Option (List String) → Option (List String) → Prop) (m : Machine MemoryHost L)
    (live : List LiveInterface) (ds ds' : List DeclaredInterface) : Prop where
  forth : ∀ d ∈ ds, ∃ d' ∈ ds', d'.mac = d.mac ∧
    Compare P Q ((Visit.run live d).run m).2 ((Visit.run live d').run m).2
  back : ∀ d' ∈ ds', ∃ d ∈ ds, d.mac = d'.mac

variable {P : List LiveAddress → List LiveAddress → Prop}
  {Q : Option (List String) → Option (List String) → Prop}

theorem Machine.Visited.of_back (h : Machine.Visited P Q m live ds ds')
    {p : Mac → LiveInterface → Prop}
    (hp : ∀ d ∈ ds, ∀ mac iface, d.MatchedBy live mac iface → p mac iface) :
    ∀ d' ∈ ds', ∀ mac iface, d'.MatchedBy live mac iface → p mac iface := by
  intro d' hd' mac iface hmatch'
  obtain ⟨d, hd, hmac⟩ := h.back d' hd'
  exact hp d hd mac iface ⟨hmac ▸ hmatch'.mac_eq, hmatch'.iface_eq⟩

/-- Passes over separate interfaces compare if the visits of each interface do. -/
theorem Separate.compare (h : Separate live ds) (h' : Separate live ds')
    (hvisited : Machine.Visited P Q m live ds ds') (hP : ∀ addresses, P addresses addresses)
    (hQ : ∀ r, Q r r) :
    Machine.Compare P Q ((ds.mapM (Visit.run live)).run m).2
      ((ds'.mapM (Visit.run live)).run m).2 where
  bound index := by
    by_cases hmatched : ∃ d ∈ ds, ∃ mac iface, d.MatchedBy live mac iface ∧ iface.index = index
    · obtain ⟨d, hd, mac, iface, hmatch, rfl⟩ := hmatched
      obtain ⟨d', hd', hmac, hcompare⟩ := hvisited.forth d hd
      have hmatch' : d'.MatchedBy live mac iface := ⟨hmac ▸ hmatch.mac_eq, hmatch.iface_eq⟩
      rw [(h.after hd hmatch m).1, (h'.after hd' hmatch' m).1]
      exact hcompare.bound iface.index
    · have hunmatched : ∀ d ∈ ds, ∀ mac iface, d.MatchedBy live mac iface → iface.index ≠ index :=
        fun d hd mac iface hmatch hindex => hmatched ⟨d, hd, mac, iface, hmatch, hindex⟩
      rw [bound_of_unmatched m hunmatched, bound_of_unmatched m (hvisited.of_back hunmatched)]
      exact hP _
  record key := by
    by_cases hmatched : ∃ d ∈ ds, ∃ mac iface, d.MatchedBy live mac iface ∧ mac.text = key
    · obtain ⟨d, hd, mac, iface, hmatch, rfl⟩ := hmatched
      obtain ⟨d', hd', hmac, hcompare⟩ := hvisited.forth d hd
      have hmatch' : d'.MatchedBy live mac iface := ⟨hmac ▸ hmatch.mac_eq, hmatch.iface_eq⟩
      rw [(h.after hd hmatch m).2, (h'.after hd' hmatch' m).2]
      exact hcompare.record mac.text
    · have hunmatched : ∀ d ∈ ds, ∀ mac iface, d.MatchedBy live mac iface → mac.text ≠ key :=
        fun d hd mac iface hmatch hkey => hmatched ⟨d, hd, mac, iface, hmatch, hkey⟩
      rw [record_of_unmatched m hunmatched, record_of_unmatched m (hvisited.of_back hunmatched)]
      exact hQ _

end Passes

namespace Engine
variable {e : Engine} {s : Snapshot} {ds : List DeclaredInterface}

theorem declaration_perm (h : ds.Perm s.interfaces) :
    (e.declaration s).Perm (e.declaration { s with interfaces := ds }) := (h.map _).symm

theorem declaration_sameAddresses (h : List.Forall₂ DeclaredInterface.SameAddresses s.interfaces ds) :
    List.Forall₂ DeclaredInterface.SameAddresses (e.declaration s)
      (e.declaration { s with interfaces := ds }) := by
  refine List.forall₂_map_left_iff.mpr (List.forall₂_map_right_iff.mpr (h.imp fun d d' hd => ?_))
  refine ⟨hd.mac_eq, fun ip => ?_⟩
  change ip ∈ Exclusion.keep (e.settings s) d.forwardedIps ↔
    ip ∈ Exclusion.keep (e.settings s) d'.forwardedIps
  rw [Exclusion.mem_keep, Exclusion.mem_keep, hd.mem_iff]

/-- A pass over listed interfaces answers and remembers what its visits make of it. -/
theorem apply_of_listed {N : Type} [Site N] {live : List LiveInterface} {n n₁ : N}
    (hlisted : Site.interfaces.run n = (.ok live, n₁)) (e : Engine) (s : Snapshot) :
    let visits := ((e.declaration s).mapM (Visit.run live)).run n₁
    ((e.apply s).run n).1.answer = .ok (Report.ofVisits visits.1) ∧
      ((e.apply s).run n).1.engine.notices =
        (Notices.tellAll Notices.tell e.notices visits.1).2 ∧
      ((e.apply s).run n).2 = visits.2 := by
  unfold apply
  rw [run_bind hlisted]
  exact ⟨rfl, rfl, rfl⟩

/-- The settings do not depend on the declared interfaces. -/
theorem separate_with_interfaces {live : List LiveInterface}
    (hindexes : (live.map (·.index)).Nodup) (hmacs : DistinctMacs ds) :
    Separate live (e.declaration { s with interfaces := ds }) :=
  separate_declaration (s := { s with interfaces := ds }) (hmacs.separate hindexes)

variable {L : Type} [LedgerStore L] [FixedLedger L] {live : List LiveInterface}
  {m m₁ : Machine MemoryHost L}

/-- Two passes count the same, and leave the same addresses bound in the same order, the same
records and the same bad input. -/
structure SamePass (r r' : Step (Except Fault Report) × Machine MemoryHost L) : Prop where
  answer_eq : r.1.answer = r'.1.answer
  bound_eq : ∀ index, r.2.host.addressesAt index = r'.2.host.addressesAt index
  record_eq : ∀ key, record r.2.ledger key = record r'.2.ledger key
  macs_eq : ∀ raw, r.1.engine.notices.macs.contains raw = r'.1.engine.notices.macs.contains raw
  ips_eq : ∀ raw, r.1.engine.notices.ips.contains raw = r'.1.engine.notices.ips.contains raw

/-- Two passes count the same, and leave the same addresses bound and recorded, in some order. -/
structure SameAddressesPass (r r' : Step (Except Fault Report) × Machine MemoryHost L) : Prop where
  answer_eq : r.1.answer = r'.1.answer
  bound_eq : ∀ index,
    (r.2.host.addressesAt index).toFinset = (r'.2.host.addressesAt index).toFinset
  record_eq : ∀ key,
    (record r.2.ledger key).map List.toFinset = (record r'.2.ledger key).map List.toFinset

theorem apply_perm (hlisted : Site.interfaces.run m = (.ok live, m₁))
    (hindexes : (live.map (·.index)).Nodup) (hmacs : DistinctMacs s.interfaces)
    (hperm : ds.Perm s.interfaces) :
    SamePass ((e.apply s).run m) ((e.apply { s with interfaces := ds }).run m) := by
  have hdeclared := declaration_perm (e := e) hperm
  have h : Separate live (e.declaration s) := separate_with_interfaces hindexes hmacs
  have h' : Separate live (e.declaration { s with interfaces := ds }) :=
    separate_with_interfaces hindexes (hmacs.perm hperm.symm)
  obtain ⟨hanswer, hnotices, hsite⟩ := apply_of_listed hlisted e s
  obtain ⟨hanswer', hnotices', hsite'⟩ := apply_of_listed hlisted e { s with interfaces := ds }
  rw [h.independent.answers] at hanswer hnotices
  rw [h'.independent.answers] at hanswer' hnotices'
  have hvisits := hdeclared.map fun d => ((Visit.run live d).run m₁).1
  have htold := Notices.tellAll_perm e.notices hvisits
  rw [← hnotices, ← hnotices'] at htold
  have hvisited : Machine.Visited Eq Eq m₁ live (e.declaration s)
      (e.declaration { s with interfaces := ds }) :=
    ⟨fun d hd => ⟨d, hdeclared.mem_iff.mp hd, rfl, fun _ => rfl, fun _ => rfl⟩,
      fun d hd => ⟨d, hdeclared.mem_iff.mpr hd, rfl⟩⟩
  have hcompare := h.compare h' hvisited (fun _ => rfl) (fun _ => rfl)
  rw [← hsite, ← hsite'] at hcompare
  exact {
    answer_eq := hanswer.trans
      ((congrArg Except.ok (Report.ofVisits_perm hvisits)).trans hanswer'.symm)
    bound_eq := hcompare.bound
    record_eq := hcompare.record
    macs_eq := fun raw => (htold raw).1
    ips_eq := fun raw => (htold raw).2 }

theorem apply_sameAddresses (hlisted : Site.interfaces.run m = (.ok live, m₁))
    (hindexes : (live.map (·.index)).Nodup) (hmacs : DistinctMacs s.interfaces)
    (hsame : List.Forall₂ DeclaredInterface.SameAddresses s.interfaces ds) :
    SameAddressesPass ((e.apply s).run m) ((e.apply { s with interfaces := ds }).run m) := by
  have hdeclared := declaration_sameAddresses (e := e) hsame
  have h : Separate live (e.declaration s) := separate_with_interfaces hindexes hmacs
  have h' : Separate live (e.declaration { s with interfaces := ds }) :=
    separate_with_interfaces hindexes (hmacs.sameAddresses hsame)
  obtain ⟨hanswer, -, hsite⟩ := apply_of_listed hlisted e s
  obtain ⟨hanswer', -, hsite'⟩ := apply_of_listed hlisted e { s with interfaces := ds }
  rw [h.independent.answers] at hanswer
  rw [h'.independent.answers] at hanswer'
  have hcounts : (e.declaration s).map (fun d => Report.add {} ((Visit.run live d).run m₁).1) =
      (e.declaration { s with interfaces := ds }).map
        (fun d => Report.add {} ((Visit.run live d).run m₁).1) :=
    map_congr_of_forall₂ (hdeclared.imp fun d d' hd => (Visit.run_sameAddresses hd live m₁).1)
  have hvisited : Machine.Visited (fun found found' => found.toFinset = found'.toFinset)
      (fun entries entries' => entries.map List.toFinset = entries'.map List.toFinset) m₁ live
      (e.declaration s) (e.declaration { s with interfaces := ds }) := by
    constructor
    · intro d hd
      obtain ⟨d', hd', hpair⟩ := exists_of_forall₂ hdeclared hd
      exact ⟨d', hd', hpair.mac_eq.symm, (Visit.run_sameAddresses hpair live m₁).2⟩
    · intro d' hd'
      obtain ⟨d, hd, hpair⟩ := exists_of_forall₂ hdeclared.flip hd'
      exact ⟨d, hd, hpair.mac_eq⟩
  have hcompare := h.compare h' hvisited (fun _ => rfl) (fun _ => rfl)
  rw [← hsite, ← hsite'] at hcompare
  refine ⟨?_, hcompare.bound, hcompare.record⟩
  rw [hanswer, hanswer', Report.ofVisits_eq_sum, Report.ofVisits_eq_sum, List.map_map, List.map_map]
  exact congrArg (fun counts => Except.ok (counts.foldl Report.plus {})) hcounts

omit [FixedLedger L] in
theorem interfaces_of_memory (m : Machine MemoryHost L) :
    (∃ fault, Site.interfaces.run m = (.error fault, m)) ∨
      Site.interfaces.run m = (.ok m.host.interfaces, m) := by
  cases hlisted : HostBackend.interfaces.run m.host with
  | mk answer host =>
  obtain ⟨rfl, ⟨fault, rfl⟩ | rfl⟩ := MemoryHost.interfaces_run hlisted
  · exact .inl ⟨fault, Machine.run_onHost hlisted⟩
  · exact .inr (Machine.run_onHost hlisted)

/-- The order of a declaration does not matter where the interfaces have distinct indexes and the
same operations fail all the time, if no hardware address is declared twice: neither the order of
the declared interfaces, nor the order and the repetitions of their forwarded addresses. -/
theorem apply_unordered (e : Engine) (s : Snapshot) (m : Machine MemoryHost L)
    (hindexes : (m.host.interfaces.map (·.index)).Nodup) (hmacs : DistinctMacs s.interfaces) :
    (∀ ds, ds.Perm s.interfaces →
      SamePass ((e.apply s).run m) ((e.apply { s with interfaces := ds }).run m)) ∧
    ∀ ds, List.Forall₂ DeclaredInterface.SameAddresses s.interfaces ds →
      SameAddressesPass ((e.apply s).run m) ((e.apply { s with interfaces := ds }).run m) := by
  rcases interfaces_of_memory m with ⟨fault, hlisted⟩ | hlisted
  · have hfail : ∀ s, (e.apply s).run m = (⟨.error fault, [], e⟩, m) := by
      intro s
      unfold apply
      rw [run_bind hlisted]
      rfl
    rw [hfail s]
    constructor
    · intro ds hperm
      rw [hfail]
      exact ⟨rfl, fun _ => rfl, fun _ => rfl, fun _ => rfl, fun _ => rfl⟩
    · intro ds hsame
      rw [hfail]
      exact ⟨rfl, fun _ => rfl, fun _ => rfl⟩
  · exact ⟨fun ds hperm => apply_perm hlisted hindexes hmacs hperm,
      fun ds hsame => apply_sameAddresses hlisted hindexes hmacs hsame⟩

/-- Two interfaces on which 10.0.0.6 cannot be bound, and 10.0.0.5 cannot be unbound. -/
def faultyPorts : Machine MemoryHost (SwitchedLedger MemoryLedger) where
  host := {
    interfaces := [⟨"eth0", 2, Mac.parse? "02:00:00:00:00:0a"⟩,
      ⟨"eth1", 3, Mac.parse? "02:00:00:00:00:0b"⟩]
    bound := [(3, [.host Machine.tenFive])]
    faults := { unbindable := [Machine.tenSix], unremovable := [Machine.tenFive] } }
  ledger := { store := ⟨[("02:00:00:00:00:0b", ["10.0.0.5"])]⟩ }

/-- An interface with three addresses, one that gives up its address, and a bad one. -/
def threeDeclared : Snapshot where
  interfaces := [⟨"02:00:00:00:00:0a", ["10.0.0.5", "10.0.0.6", "10.0.0.7"]⟩,
    ⟨"02:00:00:00:00:0b", []⟩, ⟨"eth0", []⟩]

/-- The same interfaces, with the addresses of the first in another order and one of them twice. -/
def threeRepeated : List DeclaredInterface :=
  [⟨"02:00:00:00:00:0a", ["10.0.0.7", "10.0.0.5", "10.0.0.6", "10.0.0.5"]⟩,
    ⟨"02:00:00:00:00:0b", []⟩, ⟨"eth0", []⟩]

theorem faultyPorts_unordered :
    SamePass ((apply {} threeDeclared).run faultyPorts)
        ((apply {} { threeDeclared with
          interfaces := threeDeclared.interfaces.reverse }).run faultyPorts) ∧
      SameAddressesPass ((apply {} threeDeclared).run faultyPorts)
        ((apply {} { threeDeclared with interfaces := threeRepeated }).run faultyPorts) := by
  have hindexes : (faultyPorts.host.interfaces.map (·.index)).Nodup := by decide
  have hmacs : DistinctMacs threeDeclared.interfaces := by decide +kernel
  have hsame : List.Forall₂ DeclaredInterface.SameAddresses threeDeclared.interfaces
      threeRepeated := by
    refine .cons ⟨rfl, fun ip => ?_⟩ (.cons ⟨rfl, fun ip => .rfl⟩ (.cons ⟨rfl, fun ip => .rfl⟩ .nil))
    simp only [List.mem_cons, List.not_mem_nil, or_false]
    tauto
  have hunordered := apply_unordered {} threeDeclared faultyPorts hindexes hmacs
  exact ⟨hunordered.1 _ (List.reverse_perm _), hunordered.2 threeRepeated hsame⟩

end Engine
end ForwardedIp
