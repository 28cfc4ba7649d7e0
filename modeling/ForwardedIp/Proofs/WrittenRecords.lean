import ForwardedIp.Proofs.CommandPasses
import ForwardedIp.Proofs.RepeatedVisits
/-!
# The record that a visit writes

A visit starts its record from what is wanted and corrects it attempt by attempt. What comes out has
a closed form: what is wanted, in declared order, without what could not be bound, and behind it
what could not be unbound, in the order in which it was read. Nothing is in it twice, and nothing
but addresses, whatever the record before it held.
-/
namespace ForwardedIp
open Attempt

namespace Visit
variable {record wanted : List String} {binds unbinds : List Attempt}

/-- Attempts on distinct texts that the record does not hold put behind it what they failed on. -/
theorem foldl_afterUnbind (hnodup : (unbinds.map (·.ip)).Nodup)
    (hfresh : ∀ a ∈ unbinds, a.ip ∉ record) :
    unbinds.foldl afterUnbind record = record ++ refusals unbinds := by
  induction unbinds generalizing record with
  | nil => simp [refusals]
  | cons a unbinds ih =>
    rw [List.map_cons, List.nodup_cons] at hnodup
    obtain ⟨ha, hunbinds⟩ := List.forall_mem_cons.mp hfresh
    rw [List.foldl_cons]
    cases hfailed : a.failed with
    | false =>
      have hstep : afterUnbind record a = record := by simp [afterUnbind, hfailed]
      rw [hstep, ih hnodup.2 hunbinds]
      simp [refusals, hfailed]
    | true =>
      have hstep : afterUnbind record a = record ++ [a.ip] := by simp [afterUnbind, hfailed, ha]
      have hrest : ∀ b ∈ unbinds, b.ip ∉ record ++ [a.ip] := by
        intro b hb hmem
        rcases List.mem_append.mp hmem with hold | hnew
        · exact hunbinds b hb hold
        · rw [List.mem_singleton] at hnew
          exact hnodup.1 (hnew ▸ List.mem_map_of_mem hb)
      rw [hstep, ih hnodup.2 hrest, List.append_assoc]
      simp [refusals, hfailed]

namespace Reconciliation
variable {N : Type} [Site N] {live : List LiveInterface} {d : DeclaredInterface} {n n' : N}
  {w : Work}

theorem next_closed (r : Reconciliation live d n w n') :
    w.next = (w.wanted.filter fun t => !(refusals w.binds).contains t) ++ refusals w.unbinds := by
  have hnodup : (w.unbinds.map (·.ip)).Nodup := by
    rw [r.unbinds_run.map_ip]
    exact nodup_eraseDups _
  rw [r.next_eq, nextRecord, foldl_afterBind, foldl_afterUnbind hnodup]
  intro a ha hmem
  exact (r.unbind_mem ha).2.2 (List.mem_filter.mp hmem).1

theorem next_nodup (r : Reconciliation live d n w n') : w.next.Nodup := by
  have hwanted : w.wanted.Nodup := by
    rw [r.wanted_eq]
    exact (nodup_eraseDups _).filter _
  have hrefused : (refusals w.unbinds).Nodup :=
    r.unbinds_run.refusals_sublist.nodup (nodup_eraseDups _)
  rw [r.next_closed, List.nodup_append]
  refine ⟨hwanted.filter _, hrefused, ?_⟩
  rintro t ht _ hrefusal rfl
  exact (r.mem_refusals_unbinds.mp hrefusal).2 (List.mem_filter.mp ht).1

end Reconciliation
end Visit

namespace Engine
variable {N : Type} [Site N]

/-- Each interface that a command reconciles gets one record: what is declared for it and not
excluded, each address once and nothing else, without what the host refused to bind, and then what
it refused to unbind, in the order in which it was read. The record holds nothing twice and nothing
but addresses. -/
theorem written_record_exact (e : Engine) (c : Command) (o : Observed N) {p : Passage (Observed N)}
    (hp : p ∈ e.passages c o) {w : Work} (hw : p.visit = .reconciled w) :
    (∃ e' s, e.pass? c = some (e', s) ∧
      p.declared ∈ Exclusion.apply (e'.settings s) s.interfaces) ∧
    ∃ addresses answer,
      p.calls = [.addresses w.iface (.ok addresses), .readRecord w.mac.text answer] ++
        w.binds.filterMap (call? fun ip => .bind w.iface ip ip.hostPrefix) ++
        w.unbinds.filterMap (call? (.unbind w.iface)) ++
        [.writeRecord w.mac.text w.next w.saved] ∧
      (w.binds.map (·.ip)).Sublist (p.declared.forwardedIps.eraseDups.filter IpAddr.isIp) ∧
      (w.unbinds.map (·.ip)).Sublist (addresses.map LiveAddress.text).eraseDups ∧
      w.next = ((p.declared.forwardedIps.eraseDups.filter IpAddr.isIp).filter fun t =>
        !(refusals w.binds).contains t) ++ refusals w.unbinds ∧
      w.next.Nodup ∧ ∀ t ∈ w.next, IpAddr.isIp t = true := by
  obtain ⟨e', s, hpass, hdeclared, -⟩ := mem_passages hp
  refine ⟨⟨e', s, hpass, hdeclared⟩, ?_⟩
  have hgoes : p.Goes := (chain_perform Passage.between_quiet e c o).goes_of_mem hp
  obtain ⟨r⟩ : Nonempty (Visit.Reconciliation p.live p.declared p.before w p.after) := by
    rw [Passage.Goes, hw] at hgoes
    cases hgoes with
    | reconciled r => exact ⟨r⟩
  have hwanted : w.wanted = p.declared.forwardedIps.eraseDups.filter IpAddr.isIp := r.wanted_eq
  refine ⟨r.addresses, r.answer, Passage.calls_of_reconciliation r, ?_, ?_, ?_, r.next_nodup,
    fun t => r.isIp_of_mem_next⟩
  · rw [r.binds_run.map_ip, ← hwanted]
    exact AddressDiff.toAdd_sublist.trans (eraseDups_sublist _)
  · rw [r.unbinds_run.map_ip, ← r.bound_eq]
    exact AddressDiff.toRemove_sublist
  · rw [← hwanted]
    exact r.next_closed

/-- A host that cannot bind 10.0.0.5 nor unbind 10.0.0.6, whose record holds copies and garbage. -/
def cluttered : Observed (Machine MemoryHost MemoryLedger) where
  site :=
    { (Machine.single "02:00:00:00:00:0a" [.host Machine.tenSix]
        ["10.0.0.6", "10.0.0.6", "garbage"]) with
      host.faults := { unbindable := [Machine.tenFive], unremovable := [Machine.tenSix] } }

/-- An address declared twice, another one, and a text that is no address. -/
def repetitive : Snapshot where
  interfaces := [⟨"02-00-00-00-00-0A", ["10.0.0.5", "::1", "10.0.0.5", "bad"]⟩]

theorem cluttered_record_written :
    ∃ p ∈ (Engine.fresh {}).passages (.apply repetitive) cluttered, ∃ w,
      p.visit = .reconciled w ∧
      .writeRecord w.mac.text ["::1", "10.0.0.6"] w.saved ∈ p.calls ∧
      ["::1", "10.0.0.6"].Nodup ∧ ∀ t ∈ ["::1", "10.0.0.6"], IpAddr.isIp t = true := by
  have hany : ((Engine.fresh {}).passages (.apply repetitive) cluttered).any
      (fun p => p.visit.work?.any (·.next = ["::1", "10.0.0.6"])) = true := by decide +kernel
  obtain ⟨p, hp, hwork⟩ := List.any_eq_true.mp hany
  cases hvisit : p.visit with
  | reconciled w =>
    rw [hvisit] at hwork
    have hnext : w.next = ["::1", "10.0.0.6"] := of_decide_eq_true hwork
    obtain ⟨-, addresses, answer, hcalls, -, -, -, hnodup, hips⟩ :=
      written_record_exact (Engine.fresh {}) (.apply repetitive) cluttered hp hvisit
    rw [hnext] at hcalls hnodup hips
    exact ⟨p, hp, w, hvisit, by simp [hcalls], hnodup, hips⟩
  | _ =>
    rw [hvisit] at hwork
    cases hwork

end Engine
end ForwardedIp
