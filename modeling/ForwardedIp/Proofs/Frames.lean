import Mathlib.Data.List.InsertIdx
import ForwardedIp.Host.Netlink
import ForwardedIp.Ledger.File
import ForwardedIp.Proofs.SeparatePassages
/-!
# What a pass leaves alone

A pass asks a host and a ledger about nothing but the interfaces that it visits: every call after
the enumeration is about the live interface that matches the visited declaration, or about the
record of its hardware address. A visit that is skipped makes no change, and the visits after it go
as if it had not been made. Without an enumeration nothing happens at all.
-/
namespace ForwardedIp

/-- A host that only changes when it is asked to. -/
class PassiveHost (H : Type) [HostBackend H] : Prop where
  interfaces_passive {h h' : H} {a : Except Fault (List LiveInterface)} :
    HostBackend.interfaces.run h = (a, h') → h' = h
  addresses_passive {h h' : H} {iface : LiveInterface} {a : Except Fault (List LiveAddress)} :
    (HostBackend.addresses iface).run h = (a, h') → h' = h

/-- A ledger that reading does not change. -/
class PassiveLedger (L : Type) [LedgerStore L] : Prop where
  read_passive {l l' : L} {key : String} {a : Except Fault (Option (List String))} :
    (LedgerStore.read key).run l = (a, l') → l' = l

/-- A host and a ledger that only change when they are asked to. -/
class PassiveSite (N : Type) [Site N] : Prop where
  interfaces_passive {n n' : N} {a : Except Fault (List LiveInterface)} :
    Site.interfaces.run n = (a, n') → n' = n
  addresses_passive {n n' : N} {iface : LiveInterface} {a : Except Fault (List LiveAddress)} :
    (Site.addresses iface).run n = (a, n') → n' = n
  read_passive {n n' : N} {key : String} {a : Except Fault (Option (List String))} :
    (Site.readRecord key).run n = (a, n') → n' = n

instance : PassiveHost MemoryHost where
  interfaces_passive h := (MemoryHost.interfaces_run h).1
  addresses_passive h := (MemoryHost.addresses_run h).1

instance {K : Type} [RouteKernel K] : PassiveHost (NetlinkHost K) where
  interfaces_passive := by rintro h h' a ⟨⟩; rfl
  addresses_passive := by rintro h h' iface a ⟨⟩; rfl

instance : PassiveLedger MemoryLedger where
  read_passive := by rintro l l' key a ⟨⟩; rfl

instance {F : Type} [FileSystem F] : PassiveLedger (FileLedgerSite F) where
  read_passive := by rintro l l' key a ⟨⟩; rfl

instance {L : Type} [LedgerStore L] [PassiveLedger L] : PassiveLedger (SwitchedLedger L) where
  read_passive := by
    intro s s' key a h
    rcases SwitchedLedger.read_run h with ⟨f, -, rfl⟩ | h
    · rfl
    · obtain ⟨l, hl, rfl⟩ := SwitchedLedger.inside_run h
      rw [PassiveLedger.read_passive hl]

instance {H L : Type} [HostBackend H] [LedgerStore L] [PassiveHost H] [PassiveLedger L] :
    PassiveSite (Machine H L) where
  interfaces_passive := by
    intro n n' a h
    obtain ⟨host, hh, rfl⟩ := Machine.onHost_run h
    rw [PassiveHost.interfaces_passive hh]
  addresses_passive := by
    intro n n' iface a h
    obtain ⟨host, hh, rfl⟩ := Machine.onHost_run h
    rw [PassiveHost.addresses_passive hh]
  read_passive := by
    intro n n' key a h
    obtain ⟨ledger, hl, rfl⟩ := Machine.onLedger_run h
    rw [PassiveLedger.read_passive hl]

/-- A call is about the live interface that matches a declared one, or about the record of its
hardware address. -/
def Call.About (live : List LiveInterface) (d : DeclaredInterface) : Call → Prop
  | .addresses iface _ | .bind iface _ _ _ | .unbind iface _ _ => ∃ mac, d.MatchedBy live mac iface
  | .readRecord key _ | .writeRecord key _ _ =>
      ∃ mac iface, d.MatchedBy live mac iface ∧ key = mac.text
  | .interfaces _ | .flush _ => False

namespace Visit
variable {N : Type} [Site N] {live : List LiveInterface} {d : DeclaredInterface} {v : Visit}
  {w : Work}

theorem Reconciliation.matchedBy {n n' : N} (r : Reconciliation live d n w n') :
    d.MatchedBy live w.mac w.iface := ⟨r.mac_eq, r.iface_eq⟩

theorem Reconciliation.mem_calls {n n' : N} (r : Reconciliation live d n w n') {c : Call} :
    c ∈ r.calls ↔ c = .addresses w.iface (.ok r.addresses) ∨
      c = .readRecord w.mac.text r.answer ∨
      (∃ a ∈ w.binds, ∃ ip, IpAddr.parse? a.ip = some ip ∧
        .bind w.iface ip ip.hostPrefix a.answer = c) ∨
      (∃ a ∈ w.unbinds, ∃ ip, IpAddr.parse? a.ip = some ip ∧ .unbind w.iface ip a.answer = c) ∨
      c = .writeRecord w.mac.text w.next w.saved := by
  simp only [calls, List.mem_append, mem_filterMap_call?, List.mem_cons, List.not_mem_nil,
    or_false, or_assoc]

theorem Reconciliation.calls_about {n n' : N} (r : Reconciliation live d n w n') {c : Call}
    (hc : c ∈ r.calls) : c.About live d := by
  rcases r.mem_calls.mp hc with rfl | rfl | ⟨a, -, ip, -, rfl⟩ | ⟨a, -, ip, -, rfl⟩ | rfl
  · exact ⟨w.mac, r.matchedBy⟩
  · exact ⟨w.mac, w.iface, r.matchedBy, rfl⟩
  · exact ⟨w.mac, r.matchedBy⟩
  · exact ⟨w.mac, r.matchedBy⟩
  · exact ⟨w.mac, w.iface, r.matchedBy, rfl⟩

section Reads
variable {iface : LiveInterface} {found : Except Fault (List LiveAddress)} {key : String}
  {answer : Except Fault (Option (List String))} {o o₁ o₂ : Observed N}

theorem calls_of_addresses (h : (Site.addresses iface).run o = (found, o₁)) :
    o₁.calls.drop o.calls.length = [.addresses iface found] := by
  rw [(Observed.noting_run h).2, List.drop_left]

theorem calls_of_read (h : (Site.addresses iface).run o = (found, o₁))
    (hread : (Site.readRecord key).run o₁ = (answer, o₂)) :
    o₂.calls.drop o.calls.length = [.addresses iface found, .readRecord key answer] := by
  rw [(Observed.noting_run hread).2, (Observed.noting_run h).2, List.append_assoc, List.drop_left]
  rfl

end Reads

/-- All the calls of a visit are about the visited interface. -/
theorem Goes.calls_about {o o' : Observed N} (g : Goes live d o v o') :
    ∀ c ∈ o'.calls.drop o.calls.length, c.About live d := by
  cases g with
  | unparseable hmac => simp
  | unmatched hmac hmatch => simp
  | @unreadable mac iface fault o' hmac hmatch haddresses =>
    rw [calls_of_addresses haddresses]
    intro c hc
    obtain rfl := List.mem_singleton.mp hc
    exact ⟨mac, hmac, hmatch⟩
  | @unrecorded mac iface addresses fault o₁ o' hmac hmatch haddresses hread hfault =>
    rw [calls_of_read haddresses hread]
    intro c hc
    rcases List.mem_cons.mp hc with rfl | hc
    · exact ⟨mac, hmac, hmatch⟩
    · obtain rfl := List.mem_singleton.mp hc
      exact ⟨mac, iface, ⟨hmac, hmatch⟩, rfl⟩
  | reconciled r =>
    rw [r.calls_eq, List.drop_left]
    exact fun c hc => r.calls_about hc

/-- A visit that does no work asks for no change. -/
theorem Goes.quiet_of_skipped {o o' : Observed N} (g : Goes live d o v o')
    (hskip : v.work? = none) : ∀ c ∈ o'.calls.drop o.calls.length, c.changes = false := by
  intro c hc
  obtain ⟨calls, heq, hreconciled⟩ := g.calls_eq
  rw [heq, List.drop_left] at hc
  by_contra hchanges
  obtain ⟨w, -, rfl⟩ := hreconciled c hc (by simpa using hchanges)
  cases hskip

/-- A visit that does no work leaves the site as it was. -/
theorem Goes.site_of_skipped [PassiveSite N] {o o' : Observed N} (g : Goes live d o v o')
    (hskip : v.work? = none) : o'.site = o.site := by
  cases g with
  | unparseable hmac => rfl
  | unmatched hmac hmatch => rfl
  | unreadable hmac hmatch haddresses =>
    exact PassiveSite.addresses_passive (Observed.noting_run haddresses).1
  | unrecorded hmac hmatch haddresses hread hfault =>
    have hsite := PassiveSite.addresses_passive (Observed.noting_run haddresses).1
    exact (PassiveSite.read_passive (Observed.noting_run hread).1).trans hsite
  | reconciled r => cases hskip

end Visit

/-- A declared interface is skipped: no live interface matches it, or its addresses or its record
cannot be read. -/
inductive Passage.Skipped {N : Type} (p : Passage (Observed N)) : Prop where
  | unmatched (h : ∀ mac iface, ¬p.declared.MatchedBy p.live mac iface)
  | unreadable {iface : LiveInterface} {fault : Fault}
      (h : .addresses iface (.error fault) ∈ p.calls)
  | unrecorded {key : String} {fault : Fault} (h : .readRecord key (.error fault) ∈ p.calls)
      (hfault : fault.isNotFound = false)

section Skipped
variable {N : Type} [Site N] {p : Passage (Observed N)}

theorem Visit.Reconciliation.not_skipped {w : Work}
    (r : Reconciliation p.live p.declared p.before w p.after) : ¬p.Skipped := by
  rintro (h | h | @⟨key, fault, h, hfault⟩)
  · exact h w.mac w.iface r.matchedBy
  · rw [Passage.calls_of_reconciliation r] at h
    simp [r.mem_calls] at h
  · rw [Passage.calls_of_reconciliation r] at h
    obtain ⟨-, hanswer⟩ : key = w.mac.text ∧ .error fault = r.answer := by
      simpa [r.mem_calls] using h
    have hrecorded := r.recorded_eq
    rw [← hanswer, recalled, hfault] at hrecorded
    cases hrecorded

/-- An interface is skipped exactly if no work is done on it. -/
theorem Passage.Goes.skipped_iff (g : p.Goes) : p.Skipped ↔ p.visit.work? = none := by
  obtain ⟨live, d, o, v, o'⟩ := p
  change Visit.Goes live d o v o' at g
  cases g with
  | unparseable hmac =>
    refine iff_of_true (.unmatched fun mac iface h => ?_) rfl
    cases hmac.symm.trans h.mac_eq
  | unmatched hmac hmatch =>
    refine iff_of_true (.unmatched fun mac iface h => ?_) rfl
    obtain rfl := Option.some.inj (hmac.symm.trans h.mac_eq)
    cases hmatch.symm.trans h.iface_eq
  | @unreadable mac iface fault o' hmac hmatch haddresses =>
    have hmem : .addresses iface (.error fault) ∈ o'.calls.drop o.calls.length := by
      rw [Visit.calls_of_addresses haddresses]
      exact List.mem_singleton_self _
    exact iff_of_true (.unreadable hmem) rfl
  | @unrecorded mac iface addresses fault o₁ o' hmac hmatch haddresses hread hfault =>
    have hmem : .readRecord mac.text (.error fault) ∈ o'.calls.drop o.calls.length := by
      rw [Visit.calls_of_read haddresses hread]
      exact List.mem_cons_of_mem _ (List.mem_singleton_self _)
    exact iff_of_true (.unrecorded hmem hfault) rfl
  | reconciled r => exact iff_of_false r.not_skipped (by rintro ⟨⟩)

end Skipped

namespace Observed
variable {N α β : Type}

/-- What an action does does not depend on the calls so far, nor do the calls that it adds. -/
def Oblivious (x : StateM (Observed N) α) : Prop :=
  ∀ n, ∃ a n' calls, ∀ past, x.run ⟨n, past⟩ = (a, ⟨n', past ++ calls⟩)

theorem oblivious_pure (a : α) : Oblivious (pure a : StateM (Observed N) α) := by
  intro n
  refine ⟨a, n, [], fun past => ?_⟩
  rw [List.append_nil]
  rfl

theorem oblivious_noting (action : StateM N α) (call : α → Call) :
    Oblivious (noting action call) :=
  fun n => ⟨(action n).1, (action n).2, [call (action n).1], fun _ => rfl⟩

namespace Oblivious
variable {x : StateM (Observed N) α}

theorem bind {f : α → StateM (Observed N) β} (hx : Oblivious x) (hf : ∀ a, Oblivious (f a)) :
    Oblivious (x >>= f) := by
  intro n
  obtain ⟨a, n₁, calls, hrun⟩ := hx n
  obtain ⟨b, n₂, calls', hrun'⟩ := hf a n₁
  refine ⟨b, n₂, calls ++ calls', fun past => ?_⟩
  rw [run_bind (hrun past), hrun', List.append_assoc]

theorem mapM {f : α → StateM (Observed N) β} (hf : ∀ a, Oblivious (f a)) (as : List α) :
    Oblivious (as.mapM f) := by
  induction as with
  | nil => exact oblivious_pure []
  | cons a as ih =>
    rw [List.mapM_cons]
    exact (hf a).bind fun b => ih.bind fun bs => oblivious_pure (b :: bs)

theorem run_congr (hx : Oblivious x) {o o' : Observed N} (h : o.site = o'.site) :
    (x.run o).1 = (x.run o').1 ∧ (x.run o).2.site = (x.run o').2.site ∧
      (x.run o).2.calls.drop o.calls.length = (x.run o').2.calls.drop o'.calls.length := by
  obtain ⟨n, past⟩ := o
  obtain ⟨n', past'⟩ := o'
  obtain rfl : n = n' := h
  obtain ⟨a, n₁, calls, hrun⟩ := hx n
  rw [hrun, hrun]
  exact ⟨rfl, rfl, by rw [List.drop_left, List.drop_left]⟩

end Oblivious
end Observed

namespace Visit
open Observed
variable {N : Type} [Site N]

theorem oblivious_bindText (iface : LiveInterface) (text : String) :
    Oblivious (bindText (N := Observed N) iface text) := by
  unfold bindText
  split
  · exact (oblivious_noting _ _).bind fun answer => oblivious_pure _
  · exact oblivious_pure _

theorem oblivious_unbindText (iface : LiveInterface) (text : String) :
    Oblivious (unbindText (N := Observed N) iface text) := by
  unfold unbindText
  split
  · exact (oblivious_noting _ _).bind fun answer => oblivious_pure _
  · exact oblivious_pure _

theorem oblivious_carryOut (mac : Mac) (iface : LiveInterface)
    (bound recorded declared : List String) :
    Oblivious (carryOut (N := Observed N) mac iface bound recorded declared) :=
  (Oblivious.mapM (oblivious_bindText iface) _).bind fun _ =>
    (Oblivious.mapM (oblivious_unbindText iface) _).bind fun _ =>
      (oblivious_noting _ _).bind fun _ => oblivious_pure _

theorem oblivious_recallOwned (mac : Mac) : Oblivious (recallOwned (N := Observed N) mac) := by
  refine (oblivious_noting _ _).bind fun answer => ?_
  split <;> exact oblivious_pure _

theorem oblivious_run (live : List LiveInterface) (d : DeclaredInterface) :
    Oblivious (run (N := Observed N) live d) := by
  unfold run
  split
  · exact oblivious_pure _
  · split
    · exact oblivious_pure _
    · refine (oblivious_noting _ _).bind fun found => ?_
      split
      · exact oblivious_pure _
      · refine (oblivious_recallOwned _).bind fun owned => ?_
        split
        · exact oblivious_pure _
        · exact (oblivious_carryOut _ _ _ _ _).bind fun w => oblivious_pure _

end Visit

/-- A passage without the calls that were made before it. -/
structure Deed (N : Type) where
  declared : DeclaredInterface
  visit : Visit
  calls : List Call
  before : N
  after : N

namespace Passage
variable {N : Type}

def deed (p : Passage (Observed N)) : Deed N :=
  ⟨p.declared, p.visit, p.calls, p.before.site, p.after.site⟩

variable [Site N] {live : List LiveInterface}

/-- The site after the visits of a pass. -/
def finish (live : List LiveInterface) (ds : List DeclaredInterface) (n : N) : N :=
  ((ds.mapM (Visit.run live)).run n).2

theorem finish_cons (live : List LiveInterface) (d : DeclaredInterface)
    (ds : List DeclaredInterface) (n : N) :
    finish live (d :: ds) n = finish live ds ((Visit.run live d).run n).2 := by
  rw [finish, run_mapM_cons, finish]

/-- The visits of a pass do the same from the same site, whatever was called before them. -/
theorem deeds_congr (live : List LiveInterface) (ds : List DeclaredInterface) {o o' : Observed N}
    (h : o.site = o'.site) :
    (ofVisits live ds o).map deed = (ofVisits live ds o').map deed ∧
      (finish live ds o).site = (finish live ds o').site := by
  induction ds generalizing o o' with
  | nil => exact ⟨rfl, h⟩
  | cons d ds ih =>
    obtain ⟨hvisit, hsite, hcalls⟩ := (Visit.oblivious_run live d).run_congr h
    obtain ⟨hdeeds, hfinish⟩ := ih hsite
    rw [finish_cons, finish_cons]
    refine ⟨?_, hfinish⟩
    have hdeed : deed ⟨live, d, o, ((Visit.run live d).run o).1, ((Visit.run live d).run o).2⟩ =
        deed ⟨live, d, o', ((Visit.run live d).run o').1, ((Visit.run live d).run o').2⟩ := by
      simp only [deed, Passage.calls, hvisit, hsite, hcalls, h]
    exact List.cons_eq_cons.mpr ⟨hdeed, hdeeds⟩

theorem calls_finish (live : List LiveInterface) (ds : List DeclaredInterface) (o : Observed N) :
    (finish live ds o).calls = o.calls ++ (ofVisits live ds o).flatMap Passage.calls := by
  induction ds generalizing o with
  | nil => exact (List.append_nil _).symm
  | cons d ds ih =>
    let p : Passage (Observed N) :=
      ⟨live, d, o, ((Visit.run live d).run o).1, ((Visit.run live d).run o).2⟩
    have hcalls : p.after.calls = o.calls ++ p.calls := Goes.calls_eq (p := p) (Visit.goes rfl)
    calc (finish live (d :: ds) o).calls
        = p.after.calls ++ (ofVisits live ds p.after).flatMap Passage.calls := by
          rw [finish_cons, ih]
      _ = o.calls ++ (p.calls ++ (ofVisits live ds p.after).flatMap Passage.calls) := by
          rw [hcalls, List.append_assoc]

/-- Without a visit that was skipped the others do what they did. -/
theorem ofVisits_without [PassiveSite N] {ds : List DeclaredInterface} {o : Observed N}
    {earlier later : List (Passage (Observed N))} {p : Passage (Observed N)}
    (hsplit : ofVisits live ds o = earlier ++ p :: later) (hskip : p.visit.work? = none) :
    (ofVisits live (ds.eraseIdx earlier.length) o).map deed = (earlier ++ later).map deed ∧
      (finish live (ds.eraseIdx earlier.length) o).site = (finish live ds o).site := by
  induction earlier generalizing ds o with
  | nil =>
    cases ds with
    | nil => cases hsplit
    | cons d ds =>
      obtain ⟨rfl, rfl⟩ := List.cons.inj hsplit
      have hsite : ((Visit.run live d).run o).2.site = o.site :=
        Visit.Goes.site_of_skipped (Visit.goes rfl) hskip
      rw [finish_cons]
      exact deeds_congr live ds hsite.symm
  | cons q earlier ih =>
    cases ds with
    | nil => cases hsplit
    | cons d ds =>
      obtain ⟨rfl, hrest⟩ := List.cons.inj hsplit
      obtain ⟨hdeeds, hfinish⟩ := ih hrest
      rw [List.length_cons, List.eraseIdx_cons_succ, finish_cons, finish_cons]
      exact ⟨congrArg (_ :: ·) hdeeds, hfinish⟩

end Passage

/-- A snapshot without its declared interface at a place. -/
def Snapshot.without (s : Snapshot) (place : Nat) : Snapshot :=
  { s with interfaces := s.interfaces.eraseIdx place }

namespace Engine
variable {N : Type} [Site N] {e : Engine} {s : Snapshot} {o o' : Observed N}

theorem declaration_without (e : Engine) (s : Snapshot) (place : Nat) :
    e.declaration (s.without place) = (e.declaration s).eraseIdx place :=
  (List.eraseIdx_map _ _ _).symm

theorem map_mac_declaration (e : Engine) (s : Snapshot) :
    (e.declaration s).map (·.mac) = s.interfaces.map (·.mac) := List.map_map

/-- A pass fails if the interfaces cannot be enumerated, and does nothing then. -/
theorem apply_unlisted {fault : Fault} (h : Site.interfaces.run o = (.error fault, o')) :
    (e.apply s).run o = (⟨.error fault, [], e⟩, o') ∧ e.passages (.apply s) o = [] := by
  refine ⟨?_, ?_⟩
  · rw [apply, run_bind h]
    rfl
  · show Passage.ofPass (e.declaration s) o = []
    rw [Passage.ofPass, h]

/-- A pass over enumerated interfaces does not fail, and does nothing but its visits. -/
theorem apply_listed {live : List LiveInterface} (h : Site.interfaces.run o = (.ok live, o')) :
    (∃ report, ((e.apply s).run o).1.answer = .ok report) ∧
      ((e.apply s).run o).2 = Passage.finish live (e.declaration s) o' ∧
        e.passages (.apply s) o = Passage.ofVisits live (e.declaration s) o' := by
  let step := e.conclude (((e.declaration s).mapM (Visit.run live)).run o').1
  have happly : (e.apply s).run o = (⟨.ok step.answer, step.events, step.engine⟩,
      Passage.finish live (e.declaration s) o') := by
    rw [apply, run_bind h]
    rfl
  rw [happly]
  refine ⟨⟨step.answer, rfl⟩, rfl, ?_⟩
  show Passage.ofPass (e.declaration s) o = _
  rw [Passage.ofPass, h]

theorem answer_eq_error {fault : Fault} : ((e.apply s).run o).1.answer = .error fault ↔
    ∃ o', Site.interfaces.run o = (.error fault, o') := by
  cases hlisted : (Site.interfaces : StateM (Observed N) _).run o with
  | mk answer o₁ =>
  cases answer with
  | error other =>
    rw [(apply_unlisted hlisted).1]
    constructor
    · rintro ⟨⟩
      exact ⟨o₁, rfl⟩
    · rintro ⟨o', ⟨⟩⟩
      rfl
  | ok live =>
    obtain ⟨⟨report, hreport⟩, -⟩ := apply_listed (e := e) (s := s) hlisted
    rw [hreport]
    constructor
    · rintro ⟨⟩
    · rintro ⟨o', ⟨⟩⟩

/-- All the calls of a pass after the enumeration are made in its passages, one for each declared
interface, and are about that interface. -/
theorem calls_listed {live : List LiveInterface} (h : Site.interfaces.run o = (.ok live, o')) :
    ((e.apply s).run o).2.calls =
        o.calls ++ .interfaces (.ok live) :: (e.passages (.apply s) o).flatMap Passage.calls ∧
      (e.passages (.apply s) o).map (·.declared.mac) = s.interfaces.map (·.mac) ∧
      ∀ p ∈ e.passages (.apply s) o, ∀ c ∈ p.calls, c.About live p.declared := by
  obtain ⟨-, hfinish, hpassages⟩ := apply_listed (e := e) (s := s) h
  rw [hfinish, hpassages]
  refine ⟨?_, ?_, ?_⟩
  · rw [Passage.calls_finish, (Observed.noting_run h).2, List.append_assoc]
    rfl
  · have hdeclared := Passage.map_declared_ofVisits live (e.declaration s) o'
    rw [← map_mac_declaration e s, ← hdeclared, List.map_map, hdeclared]
    rfl
  · intro p hp
    have hgoes := (Passage.chain_ofVisits Passage.between_quiet live _ o').goes_of_mem hp
    rw [← (Passage.mem_ofVisits hp).1]
    exact Visit.Goes.calls_about hgoes

/-- For an interface that is skipped nothing is changed, and the others get what they get in a pass
without it. -/
theorem passages_without [PassiveSite N] {earlier later : List (Passage (Observed N))}
    {p : Passage (Observed N)} (hsplit : e.passages (.apply s) o = earlier ++ p :: later)
    (hskip : p.Skipped) :
    (∀ c ∈ p.calls, c.changes = false) ∧ p.after.site = p.before.site ∧
      (e.passages (.apply (s.without earlier.length)) o).map Passage.deed =
        (earlier ++ later).map Passage.deed ∧
      ((e.apply (s.without earlier.length)).run o).2.site = ((e.apply s).run o).2.site := by
  cases hlisted : (Site.interfaces : StateM (Observed N) _).run o with
  | mk answer o₁ =>
  cases answer with
  | error fault =>
    rw [(apply_unlisted hlisted).2] at hsplit
    cases earlier <;> cases hsplit
  | ok live =>
    obtain ⟨-, hfinish, hpassages⟩ := apply_listed (e := e) (s := s) hlisted
    obtain ⟨-, hfinish', hpassages'⟩ :=
      apply_listed (e := e) (s := s.without earlier.length) hlisted
    rw [hpassages] at hsplit
    have hchain := Passage.chain_ofVisits Passage.between_quiet live (e.declaration s) o₁
    rw [hsplit] at hchain
    have hgoes := hchain.split.2.1
    have hidle := hgoes.skipped_iff.mp hskip
    obtain ⟨hdeeds, hsite⟩ := Passage.ofVisits_without hsplit hidle
    rw [hfinish, hfinish', hpassages', declaration_without]
    exact ⟨Visit.Goes.quiet_of_skipped hgoes hidle, Visit.Goes.site_of_skipped hgoes hidle,
      hdeeds, hsite⟩

/-- A pass fails only if the interfaces cannot be enumerated, and does nothing then. Otherwise it
makes a visit for each declared interface, all calls of which are about that interface. For an
interface that is skipped nothing is changed, and the others get what they would get without it. -/
theorem apply_frame [PassiveSite N] (e : Engine) (s : Snapshot) (o : Observed N) :
    (∀ fault, ((e.apply s).run o).1.answer = .error fault ↔
      ∃ o', Site.interfaces.run o = (.error fault, o')) ∧
    (∀ fault o', Site.interfaces.run o = (.error fault, o') →
      (e.apply s).run o = (⟨.error fault, [], e⟩, o') ∧ o'.site = o.site ∧
        o'.calls = o.calls ++ [.interfaces (.error fault)]) ∧
    (∀ live o', Site.interfaces.run o = (.ok live, o') →
      ((e.apply s).run o).2.calls = o.calls ++ .interfaces (.ok live) ::
        (e.passages (.apply s) o).flatMap Passage.calls ∧
      (e.passages (.apply s) o).map (·.declared.mac) = s.interfaces.map (·.mac) ∧
      ∀ p ∈ e.passages (.apply s) o, ∀ c ∈ p.calls, c.About live p.declared) ∧
    ∀ earlier p later, e.passages (.apply s) o = earlier ++ p :: later → p.Skipped →
      (∀ c ∈ p.calls, c.changes = false) ∧ p.after.site = p.before.site ∧
        (e.passages (.apply (s.without earlier.length)) o).map Passage.deed =
          (earlier ++ later).map Passage.deed ∧
        ((e.apply (s.without earlier.length)).run o).2.site = ((e.apply s).run o).2.site := by
  refine ⟨fun fault => answer_eq_error, ?_, fun live o' => calls_listed, ?_⟩
  · intro fault o' hlisted
    obtain ⟨hsite, hcalls⟩ := Observed.noting_run hlisted
    exact ⟨(apply_unlisted hlisted).1, PassiveSite.interfaces_passive hsite, hcalls⟩
  · exact fun earlier p later => passages_without

/-- Two interfaces are declared, the first with a text that is no hardware address. -/
def mislabeled : Snapshot where
  interfaces := [⟨"eth0", ["10.0.0.6"]⟩, ⟨"02:00:00:00:00:0a", ["10.0.0.5"]⟩]

/-- A machine on which nothing is bound. -/
def bareMachine : Observed (Machine MemoryHost MemoryLedger) where
  site := .single "02:00:00:00:00:0a" [] []

theorem mislabeled_skipped : ∃ p later,
    (fresh {}).passages (.apply mislabeled) bareMachine = p :: later ∧ p.Skipped ∧
      ((fresh {}).passages (.apply (mislabeled.without 0)) bareMachine).map Passage.deed =
        later.map Passage.deed := by
  obtain ⟨-, -, -, hskipped⟩ := apply_frame (fresh {}) mislabeled bareMachine
  have hfirst : ((fresh {}).passages (.apply mislabeled) bareMachine).head?.any
      (fun p => (Mac.parse? p.declared.mac).isNone) = true := by decide +kernel
  cases hpassages : (fresh {}).passages (.apply mislabeled) bareMachine with
  | nil =>
    rw [hpassages] at hfirst
    cases hfirst
  | cons p later =>
    rw [hpassages] at hfirst
    have hmac : Mac.parse? p.declared.mac = none := Option.isNone_iff_eq_none.mp hfirst
    have hskip : p.Skipped := .unmatched fun mac iface h => by cases hmac.symm.trans h.mac_eq
    obtain ⟨-, -, hdeeds, -⟩ := hskipped [] p later hpassages hskip
    exact ⟨p, later, rfl, hskip, hdeeds⟩

end Engine
end ForwardedIp
