import ForwardedIp.Proofs.CommandPasses
import ForwardedIp.Proofs.Differences
import ForwardedIp.Proofs.PendingRetries
import ForwardedIp.Proofs.ReliableVisits
/-!
# One reliable host stands for another

Two reliable hosts that tell the same are told apart by no run of a reconciler: whatever kind they
are, every command is answered alike, leaves the same ledger, and leaves hosts that tell the same,
but for the order of addresses. So a host in memory stands for one that talks to a kernel.
-/
namespace ForwardedIp

open ReliableHost

/-- Two outlines list the same interfaces with the same addresses. -/
structure Outline.Agrees (u u' : Outline) : Prop where
  listed_eq : u.listed = u'.listed
  bound_eq : ∀ iface ∈ u.listed, u.bound iface.index = u'.bound iface.index

/-- Compared with the start the same interfaces are there, none has an IP twice, and only single
hosts got bound. -/
structure Outline.Tidy (start u : Outline) : Prop where
  listed_eq : u.listed = start.listed
  single : ∀ iface ∈ start.listed, ((u.bound iface.index).map LiveAddress.ip).Nodup
  grown : ∀ iface ∈ start.listed, ∀ x ∈ u.bound iface.index,
    x ∈ start.bound iface.index ∨ x = .host x.ip

/-- What a declared interface wants is in printed form, and is bound at the start as a single host
or not at all. -/
structure Outline.Suits (start : Outline) (d : DeclaredInterface) : Prop where
  printed : Printed d.forwardedIps
  host : ∀ mac iface, d.MatchedBy start.listed mac iface →
    ∀ x ∈ start.bound iface.index, x.ip.text ∈ d.forwardedIps → x = .host x.ip

namespace Outline
variable {start u u' : Outline} {d : DeclaredInterface} {mac : Mac} {iface : LiveInterface}
  {index : Nat} {adds removes removes' : List IpAddr}

theorem Tidy.ready (h : start.Tidy u) (hd : start.Suits d)
    (hmatch : d.MatchedBy start.listed mac iface) :
    Visit.Ready u iface.index d.forwardedIps where
  printed := hd.printed
  single := h.single iface hmatch.mem_live
  host x hx hdeclared := by
    rcases h.grown iface hmatch.mem_live x hx with hstart | hhost
    · exact hd.host mac iface hmatch x hstart hdeclared
    · exact hhost

theorem mem_settle_self {x : LiveAddress} : x ∈ (u.settle index adds removes).bound index ↔
    (x ∈ u.bound index ∨ ∃ ip ∈ adds, x = .host ip) ∧ x.ip ∉ removes := by
  rw [settle, put_bound_self, Multiset.mem_filter, Multiset.mem_add]
  simp [@eq_comm _ x]

theorem settle_of_ne {other : Nat} (h : other ≠ index) :
    (u.settle index adds removes).bound other = u.bound other := put_bound_of_ne h

theorem Tidy.settle (h : start.Tidy u) (index : Nat) (hadds : adds.Nodup)
    (hfresh : ∀ ip ∈ adds, ∀ x ∈ u.bound index, x.ip ≠ ip) :
    start.Tidy (u.settle index adds removes) where
  listed_eq := h.listed_eq
  single iface hiface := by
    by_cases hindex : iface.index = index
    · subst hindex
      have hall := single_add (h.single iface hiface) hadds hfresh
      rw [Outline.settle, put_bound_self]
      exact Multiset.nodup_of_le (Multiset.map_le_map (Multiset.filter_le _ _)) hall
    · rw [settle_of_ne hindex]
      exact h.single iface hiface
  grown iface hiface x hx := by
    by_cases hindex : iface.index = index
    · subst hindex
      obtain ⟨hx | ⟨ip, -, rfl⟩, -⟩ := mem_settle_self.mp hx
      · exact h.grown iface hiface x hx
      · exact .inr rfl
    · rw [settle_of_ne hindex] at hx
      exact h.grown iface hiface x hx

theorem Agrees.settle (h : u.Agrees u') (hindex : u.bound index = u'.bound index)
    (hremoves : ∀ ip, ip ∈ removes ↔ ip ∈ removes') :
    (u.settle index adds removes).Agrees (u'.settle index adds removes') where
  listed_eq := h.listed_eq
  bound_eq iface hiface := by
    by_cases hother : iface.index = index
    · subst hother
      simp only [Outline.settle, put_bound_self, hindex, hremoves]
    · rw [settle_of_ne hother, settle_of_ne hother]
      exact h.bound_eq iface hiface

end Outline

/-- Two works that differ in nothing that counts, but for the order of removals. -/
structure Work.Alike (w w' : Work) : Prop where
  mac_eq : w.mac = w'.mac
  rejected_eq : w.rejected = w'.rejected
  binds_eq : w.binds = w'.binds
  unbinds_perm : w.unbinds.Perm w'.unbinds
  saved_eq : w.saved = w'.saved

/-- The order of what is bound does not count. -/
theorem Visit.smoothWork_alike {mac : Mac} {iface : LiveInterface}
    {bound bound' recorded declared : List String} {saved : Except Fault Unit}
    (h : bound.Perm bound') : (smoothWork mac iface bound recorded declared saved).Alike
      (smoothWork mac iface bound' recorded declared saved) := by
  obtain ⟨hadds, hremoves⟩ := AddressDiff.between_bound_perm recorded (wantedOf declared) h
  exact ⟨rfl, rfl, congrArg (List.map Attempt.granted) hadds, hremoves.map Attempt.granted, rfl⟩

/-- Two visits that differ in nothing that counts, but for the order of removals. -/
inductive Visit.Alike : Visit → Visit → Prop where
  | same (v : Visit) : Alike v v
  | reconciled {w w' : Work} (h : w.Alike w') : Alike (.reconciled w) (.reconciled w')

namespace Visit.Alike
variable {v v' : Visit} {vs vs' : List Visit}

theorem report_add (h : v.Alike v') (r : Report) : r.add v = r.add v' := by
  cases h with
  | same v => rfl
  | @reconciled w w' h =>
    show r.addWork w = r.addWork w'
    rw [Report.addWork, Report.addWork, h.binds_eq, h.saved_eq,
      h.unbinds_perm.countP_eq, h.unbinds_perm.countP_eq]

theorem ofVisits_eq (h : List.Forall₂ Visit.Alike vs vs') :
    Report.ofVisits vs = Report.ofVisits vs' := by
  unfold Report.ofVisits
  generalize ({} : Report) = r
  induction h generalizing r with
  | nil => rfl
  | cons hv hvs ih => rw [List.foldl_cons, List.foldl_cons, hv.report_add, ih]

theorem tell_eq (h : v.Alike v') (n : Notices) : (n.tell v).2 = (n.tell v').2 := by
  cases h with
  | same v => rfl
  | @reconciled w w' h =>
    show (Notices.tellAll (fun n => n.badIp w.mac) n w.rejected).2 =
      (Notices.tellAll (fun n => n.badIp w'.mac) n w'.rejected).2
    rw [h.mac_eq, h.rejected_eq]

theorem tellAll_eq (h : List.Forall₂ Visit.Alike vs vs') (n : Notices) :
    (Notices.tellAll Notices.tell n vs).2 = (Notices.tellAll Notices.tell n vs').2 := by
  rw [Notices.tellAll_snd, Notices.tellAll_snd]
  induction h generalizing n with
  | nil => rfl
  | cons hv hvs ih => rw [List.foldl_cons, List.foldl_cons, hv.tell_eq, ih]

end Visit.Alike

theorem Engine.conclude_eq {vs vs' : List Visit} (h : List.Forall₂ Visit.Alike vs vs')
    (e : Engine) : (e.conclude vs).answer = (e.conclude vs').answer ∧
      (e.conclude vs).engine = (e.conclude vs').engine := by
  have hreport := Visit.Alike.ofVisits_eq h
  have hnotices := Visit.Alike.tellAll_eq h e.notices
  refine ⟨hreport, ?_⟩
  show ({ e with
    notices := (Notices.tellAll Notices.tell e.notices vs).2
    retryPending := (Report.ofVisits vs).hasFailures } : Engine) = _
  rw [hreport, hnotices]
  rfl

section Twins
variable {H H' L : Type} [HostBackend H] [ReliableHost H] [HostBackend H'] [ReliableHost H']
  [LedgerStore L]

/-- Two machines with reliable hosts that tell the same, and with the same ledger. -/
structure Twins (start : Outline) (o : Observed (Machine H L)) (o' : Observed (Machine H' L)) :
    Prop where
  shown : ∃ u u' l, o.Shows u l ∧ o'.Shows u' l ∧ u.Agrees u' ∧ start.Tidy u

namespace Twins
variable {start : Outline} {o : Observed (Machine H L)} {o' : Observed (Machine H' L)}
  {d : DeclaredInterface} {ds : List DeclaredInterface}

/-- A visit of a declaration that suits the start does the same on twins. -/
theorem visit (t : Twins start o o') (hd : start.Suits d) :
    ((Visit.run start.listed d).run o).1.Alike ((Visit.run start.listed d).run o').1 ∧
      Twins start ((Visit.run start.listed d).run o).2 ((Visit.run start.listed d).run o').2 := by
  obtain ⟨u, u', l, h, h', hagrees, htidy⟩ := t.shown
  cases hmac : Mac.parse? d.mac with
  | none =>
    rw [Visit.run_unparseable hmac, Visit.run_unparseable hmac]
    exact ⟨.same _, t⟩
  | some mac =>
    cases hiface : Visit.matching? start.listed mac with
    | none =>
      rw [Visit.run_unmatched hmac hiface, Visit.run_unmatched hmac hiface]
      exact ⟨.same _, t⟩
    | some iface =>
      have hmatch : d.MatchedBy start.listed mac iface := ⟨hmac, hiface⟩
      have hready := htidy.ready hd hmatch
      have hbound := hagrees.bound_eq iface (htidy.listed_eq ▸ hmatch.mem_live)
      obtain ⟨found, o₁, haddresses, hfound, h₁⟩ := h.addresses iface
      obtain ⟨found', o₁', haddresses', hfound', h₁'⟩ := h'.addresses iface
      obtain ⟨o₂, hread, h₂⟩ := h₁.readRecord mac.text
      obtain ⟨o₂', hread', h₂'⟩ := h₁'.readRecord mac.text
      cases hrecalled : Visit.recalled ((LedgerStore.read mac.text).run l).1 with
      | error fault =>
        rw [Visit.run_unrecorded hmatch haddresses hread hrecalled,
          Visit.run_unrecorded hmatch haddresses' hread' hrecalled]
        exact ⟨.same _, ⟨u, u', _, h₂, h₂', hagrees, htidy⟩⟩
      | ok recorded =>
        have hrecorded : ∀ text ∈ recorded, IpAddr.isIp text = true := fun text htext =>
          (Visit.isIp_of_mem_recalled hrecalled htext).1
        have htexts : ((found.map LiveAddress.text : List String) : Multiset String) =
            (u.bound iface.index).map LiveAddress.text := by
          rw [← hfound, Multiset.map_coe]
        have htexts' : ((found'.map LiveAddress.text : List String) : Multiset String) =
            (u'.bound iface.index).map LiveAddress.text := by
          rw [← hfound', Multiset.map_coe]
        have hready' : Visit.Ready u' iface.index d.forwardedIps :=
          ⟨hready.printed, hbound ▸ hready.single, hbound ▸ hready.host⟩
        have hperm : (found.map LiveAddress.text).Perm (found'.map LiveAddress.text) :=
          Multiset.coe_eq_coe.mp (htexts.trans ((congrArg _ hbound).trans htexts'.symm))
        obtain ⟨hadds, hremoves⟩ := AddressDiff.between_bound_perm recorded
          (Visit.wantedOf d.forwardedIps) hperm
        obtain ⟨-, hnodup, hfresh⟩ := hready.toAdd recorded htexts rfl
        cases hwrite : (LedgerStore.write mac.text (Visit.wantedOf d.forwardedIps)).run
            ((LedgerStore.read mac.text).run l).2 with
        | mk saved l₃ =>
        obtain ⟨o₃, hwork, h₃⟩ := Visit.carryOut_run h₂ mac hready hrecorded htexts rfl rfl hwrite
        obtain ⟨o₃', hwork', h₃'⟩ := Visit.carryOut_run h₂' mac hready' hrecorded htexts'
          (congrArg IpAddr.ofTexts hadds) rfl hwrite
        rw [Visit.run_reconciled hmatch haddresses hread hrecalled hwork,
          Visit.run_reconciled hmatch haddresses' hread' hrecalled hwork']
        refine ⟨.reconciled (Visit.smoothWork_alike hperm), ?_⟩
        exact ⟨_, _, l₃, h₃, h₃', hagrees.settle hbound fun ip => (hremoves.filterMap _).mem_iff,
          htidy.settle iface.index hnodup hfresh⟩

theorem visits (t : Twins start o o') (hds : ∀ d ∈ ds, start.Suits d) :
    List.Forall₂ Visit.Alike ((ds.mapM (Visit.run start.listed)).run o).1
        ((ds.mapM (Visit.run start.listed)).run o').1 ∧
      Twins start ((ds.mapM (Visit.run start.listed)).run o).2
        ((ds.mapM (Visit.run start.listed)).run o').2 := by
  induction ds generalizing o o' with
  | nil => exact ⟨.nil, t⟩
  | cons d ds ih =>
    obtain ⟨hd, hds⟩ := List.forall_mem_cons.mp hds
    obtain ⟨hvisit, t₁⟩ := t.visit hd
    obtain ⟨hvisits, t₂⟩ := ih t₁ hds
    rw [run_mapM_cons, run_mapM_cons]
    exact ⟨.cons hvisit hvisits, t₂⟩

/-- Two steps on twins answer the same, remember the same, and leave twins. -/
structure Steps {α : Type} (start : Outline) (r : Step α × Observed (Machine H L))
    (r' : Step α × Observed (Machine H' L)) : Prop where
  answer_eq : r.1.answer = r'.1.answer
  engine_eq : r.1.engine = r'.1.engine
  twins : Twins start r.2 r'.2

variable {e : Engine} {s : Snapshot} {c : Command}

theorem apply (t : Twins start o o') (hs : ∀ d ∈ e.declaration s, start.Suits d) :
    Steps start ((e.apply s).run o) ((e.apply s).run o') := by
  obtain ⟨u, u', l, h, h', hagrees, htidy⟩ := t.shown
  obtain ⟨o₁, hlisted, h₁⟩ := h.interfaces
  obtain ⟨o₁', hlisted', h₁'⟩ := h'.interfaces
  rw [htidy.listed_eq] at hlisted
  rw [← hagrees.listed_eq, htidy.listed_eq] at hlisted'
  have t₁ : Twins start o₁ o₁' := ⟨u, u', l, h₁, h₁', hagrees, htidy⟩
  obtain ⟨hvisits, t₂⟩ := t₁.visits hs
  obtain ⟨hreport, hengine⟩ := Engine.conclude_eq hvisits e
  unfold Engine.apply
  rw [run_bind hlisted, run_bind hlisted']
  exact ⟨congrArg Except.ok hreport, hengine, t₂⟩

/-- A command of whose passes every declaration suits the start does the same on twins. -/
theorem perform (t : Twins start o o')
    (hs : ∀ e' s, e.pass? c = some (e', s) → ∀ d ∈ e'.declaration s, start.Suits d) :
    Steps start ((e.perform c).run o) ((e.perform c).run o') := by
  cases hpass : e.pass? c with
  | none =>
    rw [Engine.perform_idle hpass, Engine.perform_idle hpass]
    exact ⟨rfl, rfl, t⟩
  | some pass =>
    obtain ⟨e', s⟩ := pass
    have hsteps := t.apply (hs e' s hpass)
    obtain ⟨hanswer, hengine⟩ := Engine.wrapUp_congr hsteps.answer_eq hsteps.engine_eq c
    rw [Engine.perform_pass hpass, Engine.perform_pass hpass]
    exact ⟨hanswer, hengine, hsteps.twins⟩

end Twins

/-- Two hosts tell the same: the same interfaces, and on each the same addresses in some order. -/
def SameTold (h : H) (h' : H') : Prop :=
  ∃ live, (HostBackend.interfaces.run h).1 = .ok live ∧
    (HostBackend.interfaces.run h').1 = .ok live ∧
      ∀ iface ∈ live, ∃ found found', ((HostBackend.addresses iface).run h).1 = .ok found ∧
        ((HostBackend.addresses iface).run h').1 = .ok found' ∧ found.Perm found'

/-- Two turns answer the same, and leave the same engine, the same ledger, and hosts that tell the
same. -/
structure Turn.Agrees (t : Turn (Machine H L)) (t' : Turn (Machine H' L)) : Prop where
  answer_eq : t.answer? = t'.answer?
  engine_eq : t.finish.engine = t'.finish.engine
  ledger_eq : t.finish.site.site.ledger = t'.finish.site.site.ledger
  told : SameTold t.finish.site.site.host t'.finish.site.site.host

namespace Twins
variable {start : Outline} {o : Observed (Machine H L)} {o' : Observed (Machine H' L)}

omit [LedgerStore L] in
theorem ledger_eq (t : Twins start o o') : o.site.ledger = o'.site.ledger := by
  obtain ⟨u, u', l, h, h', -, -⟩ := t.shown
  exact h.ledger_eq.trans h'.ledger_eq.symm

omit [LedgerStore L] in
theorem told (t : Twins start o o') : SameTold o.site.host o'.site.host := by
  obtain ⟨u, u', l, h, h', hagrees, -⟩ := t.shown
  have hlisted := interfaces_run h.reliable
  have hlisted' := interfaces_run h'.reliable
  rw [h.outline_eq] at hlisted
  rw [h'.outline_eq, ← hagrees.listed_eq] at hlisted'
  refine ⟨u.listed, by rw [hlisted], by rw [hlisted'], fun iface hiface => ?_⟩
  obtain ⟨found, hrun, hfound⟩ := addresses_run h.reliable iface
  obtain ⟨found', hrun', hfound'⟩ := addresses_run h'.reliable iface
  rw [h.outline_eq] at hfound
  rw [h'.outline_eq, ← hagrees.bound_eq iface hiface] at hfound'
  exact ⟨found, found', by rw [hrun], by rw [hrun'],
    Multiset.coe_eq_coe.mp (hfound.trans hfound'.symm)⟩

/-- A run of which every declaration suits the start goes the same on twins, turn by turn. -/
theorem turns {m : Managed (Machine H L)} {m' : Managed (Machine H' L)}
    (hengine : m.engine = m'.engine) (t : Twins start m.site m'.site) (cs : List Command)
    (hs : ∀ turn ∈ m.turns (cs.map .command), ∀ e s, turn.pass? = some (e, s) →
      ∀ d ∈ e.declaration s, start.Suits d) :
    List.Forall₂ Turn.Agrees (m.turns (cs.map .command)) (m'.turns (cs.map .command)) := by
  induction cs generalizing m m' with
  | nil => exact .nil
  | cons c cs ih =>
    obtain ⟨e, o⟩ := m
    obtain ⟨e', o'⟩ := m'
    obtain rfl : e = e' := hengine
    obtain ⟨hfirst, hrest⟩ := List.forall_mem_cons.mp hs
    have hsteps := t.perform (c := c) hfirst
    refine .cons ⟨?_, hsteps.engine_eq, hsteps.twins.ledger_eq, hsteps.twins.told⟩ ?_
    · exact congrArg some hsteps.answer_eq
    · exact ih hsteps.engine_eq hsteps.twins hrest

end Twins
end Twins

/-- A host in memory without faults that has what another host tells. -/
structure MemoryHost.Mirrors {H : Type} [HostBackend H] (m : MemoryHost) (h : H) : Prop where
  faults_eq : m.faults = {}
  interfaces_eq : (HostBackend.interfaces.run h).1 = .ok m.interfaces
  addresses_eq : ∀ iface ∈ m.interfaces,
    ((HostBackend.addresses iface).run h).1 = .ok (m.addressesAt iface.index)

namespace ReliableHost
variable {H L : Type} [HostBackend H] [ReliableHost H] {h : H} {m : MemoryHost}

/-- A machine whose host is reliable has a twin with a mirror of that host. -/
theorem twins_of_mirror (hreliable : Reliable h) (hmirror : m.Mirrors h)
    (hsingle : ∀ iface ∈ (outline h).listed,
      (((outline h).bound iface.index).map LiveAddress.ip).Nodup) (l : L) :
    Twins (outline h) ({ site := ⟨h, l⟩ } : Observed (Machine H L))
      ({ site := ⟨m, l⟩ } : Observed (Machine MemoryHost L)) := by
  have hlisted : (outline h).listed = m.interfaces := by
    have heq := hmirror.interfaces_eq
    rw [interfaces_run hreliable] at heq
    exact Except.ok.inj heq
  have hbound : ∀ iface ∈ (outline h).listed,
      (outline h).bound iface.index = m.addressesAt iface.index := by
    intro iface hiface
    obtain ⟨found, hrun, hfound⟩ := addresses_run hreliable iface
    have heq := hmirror.addresses_eq iface (hlisted ▸ hiface)
    rw [hrun] at heq
    rw [← hfound, Except.ok.inj heq]
  exact ⟨outline h, m.outline, l, ⟨hreliable, rfl, rfl⟩, ⟨hmirror.faults_eq, rfl, rfl⟩,
    ⟨hlisted, hbound⟩, ⟨rfl, hsingle, fun iface _ x hx => .inl hx⟩⟩

end ReliableHost

/-- A reconciler with a host and a ledger that nobody has called yet. -/
def Managed.on {H L : Type} (e : Engine) (h : H) (l : L) : Managed (Machine H L) :=
  ⟨e, { site := ⟨h, l⟩ }⟩

theorem Outline.Suits.declaration {start : Outline} {e : Engine} {s : Snapshot}
    {d : DeclaredInterface} (hs : ∀ d ∈ s.interfaces, start.Suits d) (hd : d ∈ e.declaration s) :
    start.Suits d := by
  obtain ⟨declared, hdeclared, rfl⟩ := List.mem_map.mp hd
  have hsuits := hs declared hdeclared
  refine ⟨fun t ht => hsuits.printed t (Exclusion.mem_of_mem_keep ht), ?_⟩
  intro mac iface hmatch x hx ht
  exact hsuits.host mac iface ⟨hmatch.mac_eq, hmatch.iface_eq⟩ x hx (Exclusion.mem_of_mem_keep ht)

/-- If the snapshots of all commands suit the start, so does every declaration of their run. -/
theorem Managed.suits_of_commands {N : Type} [Site N] {start : Outline} {m : Managed N}
    {cs : List Command}
    (hcs : ∀ c ∈ cs, ∀ s, c.snapshot? = some s → ∀ d ∈ s.interfaces, start.Suits d) :
    ∀ turn ∈ m.turns (cs.map .command), ∀ e s, turn.pass? = some (e, s) →
      ∀ d ∈ e.declaration s, start.Suits d := by
  intro turn hturn e s hpass d hd
  obtain ⟨before, since, hsplit⟩ := List.append_of_mem hturn
  obtain ⟨past, future, hhappened, -⟩ := turns_split hsplit
  obtain ⟨c, hc, hcommand⟩ : ∃ c ∈ cs, .command c = turn.happening := by
    rw [← List.mem_map, hhappened]
    exact List.mem_append_right past List.mem_cons_self
  rw [Turn.pass?, ← hcommand] at hpass
  exact Outline.Suits.declaration (hcs c hc s (Engine.snapshot?_of_pass? hpass)) hd

/-- What is kept under the indexes of interfaces is found there. -/
theorem lookup_index {live : List LiveInterface} {iface : LiveInterface} (hiface : iface ∈ live)
    (f : Nat → List LiveAddress) :
    (live.map fun i => (i.index, f i.index)).lookup iface.index = some (f iface.index) := by
  induction live with
  | nil => cases hiface
  | cons i live ih =>
    rw [List.map_cons, List.lookup_cons]
    by_cases heq : iface.index = i.index
    · rw [heq, beq_self_eq_true]
    · rw [beq_false_of_ne heq]
      rcases List.mem_cons.mp hiface with rfl | hiface
      · exact absurd rfl heq
      · exact ih hiface

namespace NetlinkHost
open ReliableKernel AddressMessage
variable {K L : Type} [RouteKernel K] [ReliableKernel K] [LedgerStore L] {k : K}

/-- The addresses that a host tells at an index. -/
def told (h : NetlinkHost K) (index : Nat) : List LiveAddress :=
  match h.messages index with
  | .ok messages => messages.filterMap toAddress?
  | .error _ => []

theorem exists_mirror (hreliable : Reliable k) :
    ∃ m : MemoryHost, m.Mirrors (⟨k⟩ : NetlinkHost K) := by
  let h : NetlinkHost K := ⟨k⟩
  let live := (outline h).listed
  refine ⟨{ interfaces := live, bound := live.map fun i => (i.index, h.told i.index) }, rfl, ?_, ?_⟩
  · rw [ReliableHost.interfaces_run (h := h) hreliable]
    rfl
  · intro iface hiface
    obtain ⟨messages, hmessages, -⟩ := messages_run (h := h) hreliable iface.index
    show (h.messages iface.index).map _ = _
    rw [MemoryHost.addressesAt, lookup_index hiface, told, hmessages]
    rfl

/-- A run over a reliable kernel and one over a host in memory that mirrors it go the same: every
command is answered alike, and leaves the same ledger and the same addresses on every interface.
No interface has an IP twice at the start, and what is wanted in the run is in printed form and is
bound at the start as a single host or not at all. -/
theorem refines_memory (hreliable : Reliable k)
    (hsingle : ∀ link ∈ links k, ((boundIn (table k) link.index).map LiveAddress.ip).Nodup)
    (e : Engine) (l : L) (cs : List Command)
    (hwanted : ∀ turn ∈ (Managed.on e (⟨k⟩ : NetlinkHost K) l).turns (cs.map .command),
      ∀ e' s, turn.pass? = some (e', s) →
        ∀ d ∈ e'.declaration s, (outline (⟨k⟩ : NetlinkHost K)).Suits d) :
    (∃ m : MemoryHost, m.Mirrors (⟨k⟩ : NetlinkHost K)) ∧
      ∀ m : MemoryHost, m.Mirrors (⟨k⟩ : NetlinkHost K) →
        List.Forall₂ Turn.Agrees
          ((Managed.on e (⟨k⟩ : NetlinkHost K) l).turns (cs.map .command))
          ((Managed.on e m l).turns (cs.map .command)) := by
  refine ⟨exists_mirror hreliable, fun m hmirror => ?_⟩
  have hsingle' : ∀ iface ∈ (outline (⟨k⟩ : NetlinkHost K)).listed,
      (((outline (⟨k⟩ : NetlinkHost K)).bound iface.index).map LiveAddress.ip).Nodup := by
    intro iface hiface
    obtain ⟨link, hlink, rfl⟩ := List.mem_map.mp hiface
    exact hsingle link hlink
  have htwins : Twins (outline (⟨k⟩ : NetlinkHost K))
      (Managed.on e (⟨k⟩ : NetlinkHost K) l).site (Managed.on e m l).site :=
    ReliableHost.twins_of_mirror (h := (⟨k⟩ : NetlinkHost K)) hreliable hmirror hsingle' l
  have hengine : (Managed.on e (⟨k⟩ : NetlinkHost K) l).engine = (Managed.on e m l).engine := rfl
  exact htwins.turns hengine cs hwanted

/-- A kernel with one link, on which 10.0.0.6 is bound with its network. -/
def onLan : Kernel where
  links := [⟨2, [.name "eth0", .hardware [2, 0, 0, 0, 0, 10]]⟩]
  addresses := [⟨2, 24, [.address Machine.tenSix, .near Machine.tenSix]⟩]

/-- The address 10.0.0.5 is declared once and then withdrawn. -/
def lease : List Command :=
  [.reconcile { interfaces := [⟨"02:00:00:00:00:0a", ["10.0.0.5"]⟩] },
    .reconcile { interfaces := [⟨"02:00:00:00:00:0a", []⟩] }]

theorem lease_suits : ∀ c ∈ lease, ∀ s, c.snapshot? = some s →
    ∀ d ∈ s.interfaces, (outline (⟨onLan⟩ : LinuxHost)).Suits d := by
  have hdeclared : ∀ c ∈ lease, ∀ s, c.snapshot? = some s → ∀ d ∈ s.interfaces,
      Printed d.forwardedIps ∧ Machine.tenSix.text ∉ d.forwardedIps := by
    simp only [lease, List.forall_mem_cons, Command.snapshot?, Option.some.injEq, forall_eq']
    decide +kernel
  intro c hc s hs d hd
  obtain ⟨hprinted, hother⟩ := hdeclared c hc s hs d hd
  refine ⟨hprinted, fun mac iface hmatch x hx hwanted => ?_⟩
  change x ∈ boundIn onLan.addresses iface.index at hx
  obtain ⟨m, hm, -, haddress⟩ := mem_boundIn.mp hx
  obtain rfl : m = ⟨2, 24, [.address Machine.tenSix, .near Machine.tenSix]⟩ := by
    simpa [table, onLan] using hm
  obtain rfl : ⟨Machine.tenSix, 24⟩ = x := Option.some.inj haddress
  exact absurd hwanted hother

theorem lease_on_lan : ∃ m : MemoryHost, m.Mirrors (⟨onLan⟩ : LinuxHost) ∧
    List.Forall₂ Turn.Agrees
      ((Managed.on {} (⟨onLan⟩ : LinuxHost) ({} : MemoryLedger)).turns (lease.map .command))
      ((Managed.on {} m ({} : MemoryLedger)).turns (lease.map .command)) := by
  have huntroubled : onLan.Untroubled := ⟨rfl, rfl, rfl, rfl⟩
  obtain ⟨⟨m, hmirror⟩, hagrees⟩ := refines_memory (k := onLan) huntroubled
    (by decide +kernel) {} ({} : MemoryLedger) lease (Managed.suits_of_commands lease_suits)
  exact ⟨m, hmirror, hagrees m hmirror⟩

end NetlinkHost
end ForwardedIp
