import ForwardedIp.Proofs.CleanVisits
import ForwardedIp.Proofs.Skipping
/-!
# The change gate leaves no trace

A cycle makes no pass if nothing changed and nothing has to be tried again. Then the last pass was
clean and settled the declaration, and a pass over a settled declaration changes nothing, whatever
fails in it. So a reconciler that skips such passes and one that makes them all leave the same
addresses bound and the same records.
-/
namespace ForwardedIp

open RecordedSite MemorySite

/-- A ledger that reading does not change, nor writing what is already there. -/
class SteadyLedger (L : Type) [LedgerStore L] extends RecordedLedger L where
  read_steady {l l' : L} {key : String} {a : Except Fault (Option (List String))} :
    (LedgerStore.read key).run l = (a, l') → l' = l
  rewrite_steady {l l' : L} {key : String} {ips : List String} {a : Except Fault Unit} :
    (LedgerStore.write key ips).run l = (a, l') → record l key = some ips → l' = l

instance : SteadyLedger MemoryLedger where
  read_steady := by rintro l l' key a ⟨⟩; rfl
  rewrite_steady := by
    rintro l l' key ips a ⟨⟩ hrecord
    exact congrArg MemoryLedger.mk (Keyed.put_of_lookup hrecord)

instance {L : Type} [LedgerStore L] [SteadyLedger L] : SteadyLedger (SwitchedLedger L) where
  read_steady := by
    intro s s' key a h
    rcases SwitchedLedger.read_run h with ⟨f, -, rfl⟩ | h
    · rfl
    · obtain ⟨l, hl, rfl⟩ := SwitchedLedger.inside_run h
      rw [SteadyLedger.read_steady hl]
  rewrite_steady := by
    intro s s' key ips a h hrecord
    rcases SwitchedLedger.write_run h with ⟨f, -, rfl⟩ | h
    · rfl
    · obtain ⟨l, hl, rfl⟩ := SwitchedLedger.inside_run h
      rw [SteadyLedger.rewrite_steady hl hrecord]

/-- A site in memory that reading does not change, nor writing a record that is already there. -/
class SteadySite (N : Type) [Site N] extends MemorySite N where
  interfaces_steady {n n' : N} {a : Except Fault (List LiveInterface)} :
    Site.interfaces.run n = (a, n') → n' = n
  addresses_steady {n n' : N} {iface : LiveInterface} {a : Except Fault (List LiveAddress)} :
    (Site.addresses iface).run n = (a, n') → n' = n
  read_steady {n n' : N} {key : String} {a : Except Fault (Option (List String))} :
    (Site.readRecord key).run n = (a, n') → n' = n
  rewrite_steady {n n' : N} {key : String} {ips : List String} {a : Except Fault Unit} :
    (Site.writeRecord key ips).run n = (a, n') → record n key = some ips → n' = n

instance {L : Type} [LedgerStore L] [SteadyLedger L] : SteadySite (Machine MemoryHost L) where
  interfaces_steady := by
    intro n n' a h
    obtain ⟨host, hh, rfl⟩ := Machine.onHost_run h
    rw [(MemoryHost.interfaces_run hh).1]
  addresses_steady := by
    intro n n' iface a h
    obtain ⟨host, hh, rfl⟩ := Machine.onHost_run h
    rw [(MemoryHost.addresses_run hh).1]
  read_steady := by
    intro n n' key a h
    obtain ⟨ledger, hl, rfl⟩ := Machine.onLedger_run h
    rw [SteadyLedger.read_steady hl]
  rewrite_steady := by
    intro n n' key ips a h hrecord
    obtain ⟨ledger, hl, rfl⟩ := Machine.onLedger_run h
    rw [SteadyLedger.rewrite_steady hl hrecord]

theorem Visit.Tries.eq_of_nil {N : Type} {act : IpAddr → StateM N (Except Fault Unit)}
    {attempts : List Attempt} {n n' : N} (h : Visit.Tries act [] n attempts n') :
    attempts = [] ∧ n' = n := by
  cases h
  exact ⟨rfl, rfl⟩

variable {N : Type} [Site N]

theorem Engine.Applies.site_unique {e e' : Engine} {s : Snapshot} {n n' n'' : N}
    {step step' : Step (Except Fault Report)} (h : Engine.Applies e s n step n')
    (h' : Engine.Applies e' s n step' n'') (hdeclaration : e.declaration s = e'.declaration s) :
    n'' = n' := by
  cases h with
  | unlisted hlisted =>
    cases h' with
    | unlisted hlisted' =>
      rw [hlisted] at hlisted'
      cases hlisted'
      rfl
    | visited hlisted' hvisits' =>
      rw [hlisted] at hlisted'
      cases hlisted'
  | visited hlisted hvisits =>
    cases h' with
    | unlisted hlisted' =>
      rw [hlisted] at hlisted'
      cases hlisted'
    | visited hlisted' hvisits' =>
      rw [hlisted] at hlisted'
      cases hlisted'
      rw [← hdeclaration, hvisits] at hvisits'
      cases hvisits'
      rfl

variable [SteadySite N]

section Passes
open SteadySite
variable {live : List LiveInterface} {n n' : N}

/-- Work on a settled interface attempts nothing and writes the record that is there. -/
theorem Visit.Reconciliation.steady {d : DeclaredInterface} {w : Work}
    (r : Visit.Reconciliation live d n w n') (hprinted : Printed d.forwardedIps)
    (hsettled : SettledAt d w.mac w.iface n) : n' = n := by
  have hadd : (AddressDiff.between w.recorded w.wanted w.bound).toAdd = [] := by
    rw [List.eq_nil_iff_forall_not_mem]
    intro t ht
    obtain ⟨hwanted, hunbound⟩ := AddressDiff.mem_toAdd.mp ht
    obtain ⟨ip, hip, hhost⟩ := hsettled.bound_of_wanted t (r.wanted_eq ▸ hwanted)
    have htext : t = ip.text := hprinted t (r.mem_wanted.mp hwanted).1 ip hip
    exact hunbound (htext ▸ r.text_mem_bound.mpr hhost)
  have hremove : (AddressDiff.between w.recorded w.wanted w.bound).toRemove = [] := by
    rw [List.eq_nil_iff_forall_not_mem]
    intro t ht
    obtain ⟨-, hrecorded, hunwanted⟩ := AddressDiff.mem_toRemove.mp ht
    obtain ⟨entries, -, hentries, hmem⟩ := r.mem_record hrecorded
    rw [hsettled.record_eq, ← r.wanted_eq] at hentries
    cases hentries
    exact hunwanted hmem
  obtain ⟨hbinds, hafterBinds⟩ := Visit.Tries.eq_of_nil (hadd ▸ r.binds_run)
  obtain ⟨hunbinds, hafterUnbinds⟩ := Visit.Tries.eq_of_nil (hremove ▸ r.unbinds_run)
  -- So the new record is what is wanted, and that is there.
  have hnext : w.next = Visit.wantedOf d.forwardedIps := by
    rw [r.next_eq, hbinds, hunbinds, ← r.wanted_eq]
    rfl
  have hlast : r.afterUnbinds = n := by
    rw [hafterUnbinds, hafterBinds, read_steady r.read_run, addresses_steady r.addresses_run]
  have hwrite := r.write_run
  rw [hlast] at hwrite
  exact rewrite_steady hwrite (hnext ▸ hsettled.record_eq)

theorem Visit.Goes.steady {d : DeclaredInterface} {v : Visit} (g : Visit.Goes live d n v n')
    (hprinted : Printed d.forwardedIps)
    (hsettled : ∀ mac iface, d.MatchedBy live mac iface → SettledAt d mac iface n) : n' = n := by
  cases g with
  | unparseable hmac => rfl
  | unmatched hmac hnone => rfl
  | unreadable hmac hiface haddresses => exact addresses_steady haddresses
  | unrecorded hmac hiface haddresses hread hfault =>
    exact (read_steady hread).trans (addresses_steady haddresses)
  | @reconciled w _ r => exact r.steady hprinted (hsettled w.mac w.iface ⟨r.mac_eq, r.iface_eq⟩)

/-- A pass over a settled declaration changes nothing, whatever fails in it. -/
theorem mapM_run_steady {ds : List DeclaredInterface} (hprinted : ∀ d ∈ ds, Printed d.forwardedIps)
    (hsettled : Settled live ds n) : ((ds.mapM (Visit.run live)).run n).2 = n := by
  induction ds with
  | nil => rfl
  | cons d ds ih =>
    obtain ⟨hd, hds⟩ := List.forall_mem_cons.mp hprinted
    obtain ⟨hfirst, hrest⟩ := List.forall_mem_cons.mp hsettled
    have hsame : ((Visit.run live d).run n).2 = n := Visit.Goes.steady (Visit.goes rfl) hd hfirst
    have hrun : (((d :: ds).mapM (Visit.run live)).run n).2 =
        ((ds.mapM (Visit.run live)).run ((Visit.run live d).run n).2).2 := by
      rw [List.mapM_cons]
      rfl
    rw [hrun, hsame, ih hds hrest]

theorem Engine.Applies.steady {e : Engine} {s : Snapshot} {step : Step (Except Fault Report)}
    (h : Engine.Applies e s n step n') (hprinted : s.Printed)
    (hsettled : Settled (listed n) (e.declaration s) n) : n' = n := by
  cases h with
  | unlisted hlisted => exact interfaces_steady hlisted
  | visited hlisted hvisits =>
    obtain rfl := interfaces_steady hlisted
    obtain rfl := interfaces_ok hlisted
    have hpass := mapM_run_steady (Engine.printed_declaration hprinted) hsettled
    rw [hvisits] at hpass
    exact hpass

end Passes

/-- A tick of a scheduler: the local overrides in force, what becomes of the site's switches, and
the snapshot. -/
structure Tick (N : Type) where
  overrides : LocalConfig
  tune : N → N
  snapshot : Snapshot

namespace Tick

/-- Handles a snapshot under its local overrides and with its switches. -/
def drive (handle : Engine → Snapshot → StateM N (Step (Except Fault CycleOutcome)))
    (state : Engine × N) (t : Tick N) : Engine × N :=
  let (step, n) := (handle (state.1.setOverrides t.overrides) t.snapshot).run (t.tune state.2)
  (step.engine, n)

/-- Only switches change between ticks, the manager is not disabled, no two declared interfaces
have one hardware address, and forwarded addresses are in printed form. -/
structure Regular (t : Tick N) : Prop where
  listed_eq : ∀ n, listed (t.tune n) = listed n
  bound_eq : ∀ n, bound (t.tune n) = bound n
  record_eq : ∀ n, record (t.tune n) = record n
  enabled : Settings.resolveDisabled t.overrides t.snapshot false = false
  macs : DistinctMacs t.snapshot.interfaces
  printed : t.snapshot.Printed

end Tick

namespace Engine

/-- The failover settings that an engine remembers. -/
def remembered (e : Engine) : Settings where
  failoverEnabled := e.memo.failoverEnabled
  failoverAddresses := e.memo.failoverAddresses

/-- An engine whose cycles make no more passes than they have to: unless something has to be tried
again, what it remembers of the last declaration is settled. -/
structure Gated (e : Engine) (n : N) : Prop where
  enabled : e.memo.disabled = false
  settled : e.retryPending = false → Settled (listed n)
    (Exclusion.apply e.remembered (TransitionMemo.declared e.previous)) n

variable {e e' : Engine} {n n' n'' : N} {t : Tick N} {s : Snapshot}

theorem gated_fresh (overrides : LocalConfig) (n : N) : (fresh overrides).Gated n where
  enabled := rfl
  settled := by
    intro _ d hd
    cases hd

theorem Gated.tune (h : e.Gated n) (ht : t.Regular) :
    (e.setOverrides t.overrides).Gated (t.tune n) where
  enabled := h.enabled
  settled := by
    intro hretry d hd mac iface hmatch
    rw [ht.listed_eq] at hmatch
    obtain ⟨hrecord, hbound⟩ := h.settled hretry d hd mac iface hmatch
    exact ⟨by rw [ht.record_eq, hrecord], by rw [ht.bound_eq]; exact hbound⟩

theorem checkDisabled_answer (hmemo : e.memo.disabled = false)
    (henabled : Settings.resolveDisabled e.overrides s false = false) :
    (e.checkDisabled s).answer = false := by
  show Settings.resolveDisabled e.overrides s e.memo.disabled = false
  rw [hmemo, henabled]

variable {step step' : Step (Except Fault CycleOutcome)}

theorem Gated.after_cycle (h : e.Gated n) (hcycle : Cycles e s n step n')
    (henabled : Settings.resolveDisabled e.overrides s false = false)
    (hseparate : Separate (listed n) s.interfaces) (hprinted : s.Printed) :
    step.engine.Gated n' := by
  have hanswer := checkDisabled_answer h.enabled henabled
  cases hcycle with
  | disabled hgate =>
    rw [hanswer] at hgate
    cases hgate
  | unchanged hgate hdue =>
    obtain ⟨hretry, hdeclared, haddresses, hfailover⟩ := of_not_due hdue
    refine ⟨hanswer, fun _ => ?_⟩
    have hsettled := h.settled hretry
    rw [hdeclared] at hsettled
    have hsame : Exclusion.apply (e.changeOf s).engine.remembered s.interfaces =
        Exclusion.apply e.remembered s.interfaces :=
      Exclusion.apply_congr haddresses hfailover s.interfaces
    exact hsame ▸ hsettled
  | applied hgate hdue hpass =>
    have hlisted' : listed n' = listed n :=
      (hpass.chain Passage.between_sameState).listed_eq fun hsame => hsame.listed_eq
    cases hpass with
    | @visited live visits n₁ _ hlisted hvisits =>
      refine ⟨hanswer, fun hretry => ?_⟩
      -- Nothing has to be tried again only if every visit was clean.
      have hclean : ∀ v ∈ visits, v.Clean := Report.hasFailures_ofVisits.mp hretry
      have hlive : live = listed n := interfaces_ok hlisted
      rw [← hlive] at hseparate
      have hsettled := settled_of_clean (n := n₁) (separate_declaration (e := e.passEngine s)
        hseparate) (printed_declaration hprinted) (by rw [hvisits]; exact hclean)
      rw [hvisits, hlive, ← hlisted'] at hsettled
      exact hsettled
  | failed hgate hdue hpass =>
    refine ⟨?_, fun hretry => ?_⟩
    · rw [hpass.engine_eq.1]
      exact hanswer
    · -- A pass that failed has to be tried again.
      cases hretry

/-- A tick that may skip its pass and one that makes it leave the same site. -/
theorem Gated.site_eq (h : e.Gated n) (hcycle : Cycles e s n step n')
    (hreconcile : Reconciles e' s n step' n'') (hmemo : e'.memo.disabled = false)
    (hoverrides : e'.overrides = e.overrides)
    (henabled : Settings.resolveDisabled e.overrides s false = false) (hprinted : s.Printed) :
    n'' = n' ∧ step'.engine.memo.disabled = false := by
  have hanswer := checkDisabled_answer h.enabled henabled
  have hanswer' := checkDisabled_answer hmemo (hoverrides ▸ henabled)
  cases hreconcile with
  | disabled hgate =>
    rw [hanswer'] at hgate
    cases hgate
  | passed hgate hplain =>
    refine ⟨?_, by rw [hplain.engine_eq.1]; exact hanswer'⟩
    have hdeclaration : (e.passEngine s).declaration s =
        (e'.checkDisabled s).engine.declaration s := declaration_congr hoverrides.symm
    cases hcycle with
    | disabled hgate =>
      rw [hanswer] at hgate
      cases hgate
    | unchanged hgate hdue =>
      -- The cycle skips a pass over a declaration that is settled already.
      obtain ⟨hretry, hdeclared, haddresses, hfailover⟩ := of_not_due hdue
      refine hplain.steady hprinted ?_
      have hsettled := h.settled hretry
      rw [hdeclared] at hsettled
      have hsame : Exclusion.apply e.remembered s.interfaces = (e.passEngine s).declaration s :=
        Exclusion.apply_congr haddresses.symm hfailover.symm s.interfaces
      rw [← hdeclaration, ← hsame]
      exact hsettled
    | applied hgate hdue hpass => exact hpass.site_unique hplain hdeclaration
    | failed hgate hdue hpass => exact hpass.site_unique hplain hdeclaration

theorem listed_of_cycle (h : (e.cycle s).run n = (step, n')) : listed n' = listed n := by
  have hchain := chain_perform Passage.between_sameState e (.cycle s) n
  have hperform : ((e.perform (.cycle s)).run n).2 = ((e.cycle s).run n).2 := rfl
  rw [hperform, h] at hchain
  exact hchain.listed_eq fun hsame => hsame.listed_eq

/-- Two reconcilers at one site, one that may skip passes and one that makes them all, leave the
same site after every tick. -/
theorem Gated.run (h : e.Gated n) (hmemo : e'.memo.disabled = false)
    (hindexes : ((listed n).map (·.index)).Nodup) {ticks : List (Tick N)}
    (hregular : ∀ t ∈ ticks, t.Regular) :
    (ticks.scanl (Tick.drive reconcile) (e', n)).map (·.2) =
      (ticks.scanl (Tick.drive cycle) (e, n)).map (·.2) := by
  induction ticks generalizing e e' n with
  | nil => rfl
  | cons t ticks ih =>
    obtain ⟨ht, hticks⟩ := List.forall_mem_cons.mp hregular
    cases hcycle : ((e.setOverrides t.overrides).cycle t.snapshot).run (t.tune n) with
    | mk step n₁ =>
    cases hreconcile : ((e'.setOverrides t.overrides).reconcile t.snapshot).run (t.tune n) with
    | mk step' n₂ =>
    have hgated : Tick.drive cycle (e, n) t = (step.engine, n₁) := by rw [Tick.drive, hcycle]
    have hplain : Tick.drive reconcile (e', n) t = (step'.engine, n₂) := by
      rw [Tick.drive, hreconcile]
    have htuned := h.tune ht
    obtain ⟨rfl, hmemo'⟩ := htuned.site_eq (cycles hcycle) (reconciles hreconcile) hmemo rfl
      ht.enabled ht.printed
    have hlisted : listed (t.tune n) = listed n := ht.listed_eq n
    have hnext : step.engine.Gated n₂ :=
      htuned.after_cycle (cycles hcycle) ht.enabled (ht.macs.separate (hlisted ▸ hindexes)) ht.printed
    have hlisted' : listed n₂ = listed n := (listed_of_cycle hcycle).trans hlisted
    rw [List.scanl_cons, List.scanl_cons, hgated, hplain]
    simp only [List.map_cons]
    rw [ih hnext hmemo' (hlisted' ▸ hindexes) hticks]

/-- The gate is invisible in its effects: driven by cycles or by passes that are always made, two
fresh reconcilers at the same site leave the same addresses bound and the same records after every
tick, whatever fails at which ticks. -/
theorem gate_invisible (overrides : LocalConfig) (n : N) (ticks : List (Tick N))
    (hindexes : ((listed n).map (·.index)).Nodup) (hregular : ∀ t ∈ ticks, t.Regular) :
    (ticks.scanl (Tick.drive reconcile) (fresh overrides, n)).map (·.2) =
      (ticks.scanl (Tick.drive cycle) (fresh overrides, n)).map (·.2) :=
  (gated_fresh overrides n).run rfl hindexes hregular

/-- A machine with one interface, whose ledger has switches. -/
def rehearsed : Machine MemoryHost (SwitchedLedger MemoryLedger) where
  host := { interfaces := [⟨"eth0", 2, Mac.parse? "02:00:00:00:00:0a"⟩] }
  ledger := { store := {} }

/-- One address is declared in three ticks: it cannot be bound in the first, it can in the second,
and in the third, which changes nothing, the ledger cannot be written. -/
def rehearsal : List (Tick (Machine MemoryHost (SwitchedLedger MemoryLedger))) :=
  let declared : Snapshot := { interfaces := [⟨"02:00:00:00:00:0a", ["10.0.0.5"]⟩] }
  [⟨{}, fun m => { m with host.faults := { unbindable := [Machine.tenFive] } }, declared⟩,
    ⟨{}, fun m => { m with host.faults := {} }, declared⟩,
    ⟨{}, fun m => { m with ledger.writeFails := true }, declared⟩]

theorem regular_rehearsal : ∀ t ∈ rehearsal, t.Regular := by
  simp only [rehearsal, List.forall_mem_cons, List.not_mem_nil, false_implies, implies_true,
    and_true]
  refine ⟨?_, ?_, ?_⟩ <;>
    exact ⟨fun _ => rfl, fun _ => rfl, fun _ => rfl, by decide +kernel, by decide +kernel,
      by decide +kernel⟩

theorem rehearsal_gate_invisible :
    (rehearsal.scanl (Tick.drive reconcile) (fresh {}, rehearsed)).map (·.2) =
        (rehearsal.scanl (Tick.drive cycle) (fresh {}, rehearsed)).map (·.2) ∧
      (rehearsal.foldl (Tick.drive cycle) (fresh {}, rehearsed)).2.host.addressesAt 2 =
        [.host Machine.tenFive] :=
  ⟨gate_invisible {} rehearsed rehearsal (by decide) regular_rehearsal, by decide +kernel⟩

end Engine
end ForwardedIp
