import ForwardedIp.Proofs.DeclarationOrder
import ForwardedIp.Proofs.FaithfulEvents
import ForwardedIp.Proofs.RepeatedVisits
/-!
# Bad input is told once

What is remembered of bad input is what was told of it, so nothing is told twice and nothing is kept
back because something else was told. A bad forwarded address is remembered by one text for it and
its hardware address. That no two of them share a text follows from the length of a canonical
hardware address. Whether it was told before or not, bad input is left out of every pass.
-/
namespace ForwardedIp

namespace Mac

theorem length_joinedPairs (o : UInt8) (octets : List UInt8) :
    ([':'].intercalate ((o :: octets).map Text.hexPair)).length = 3 * octets.length + 2 := by
  induction octets generalizing o with
  | nil => rfl
  | cons next octets ih =>
    have hpair : (Text.hexPair o).length = 2 := rfl
    rw [List.map_cons, List.map_cons, List.intercalate_cons_cons, ← List.map_cons,
      List.length_append, List.length_append, ih, hpair, List.length_singleton, List.length_cons]
    omega

/-- A canonical text has two digits for each octet, and colons between them. -/
theorem length_text (mac : Mac) : mac.text.toList.length = 17 := by
  have hlength := mac.length_octets
  rw [text, String.toList_ofList]
  cases hoctets : mac.octets with
  | nil =>
    rw [hoctets] at hlength
    cases hlength
  | cons o octets =>
    rw [hoctets, List.length_cons] at hlength
    rw [length_joinedPairs]
    omega

end Mac

namespace Event

/-- The text of a hardware address that is told to be bad. -/
def badMac? : Event → Option String
  | .badInterface raw _ => some raw
  | _ => none

/-- The canonical hardware address and the text of a forwarded address that is told to be bad. -/
def badIp? : Event → Option (String × String)
  | .badForwardedIp mac ip => some (mac, ip)
  | _ => none

theorem badMac?_of_not_isComplaint {e : Event} (h : e.isComplaint = false) : e.badMac? = none := by
  cases e <;> first | rfl | cases h

theorem badIp?_of_not_isComplaint {e : Event} (h : e.isComplaint = false) : e.badIp? = none := by
  cases e <;> first | rfl | cases h

end Event

/-- A set remembers by their keys the items that were told, none of them twice. -/
structure BadInputSet.Remembers {ι α : Type} (s : BadInputSet) (key : ι → String) (item : ι → α)
    (told : List α) : Prop where
  contains_iff : ∀ i, s.contains (key i) = true ↔ item i ∈ told
  nodup : told.Nodup

/-- An item that is told unless its key is in the set is remembered, if items with the same key are
the same. -/
theorem BadInputSet.Remembers.insert {ι α : Type} {s : BadInputSet} {key : ι → String}
    {item : ι → α} {told : List α} (h : s.Remembers key item told)
    (hkey : ∀ i j, key i = key j ↔ item i = item j) (i : ι) :
    (s.insert (key i)).Remembers key item
      (told ++ if s.contains (key i) then [] else [item i]) := by
  cases hseen : s.contains (key i) with
  | true =>
    have hinsert : s.insert (key i) = s := if_pos hseen
    rw [hinsert, if_pos rfl, List.append_nil]
    exact h
  | false =>
    have hfresh : item i ∉ told := by
      rw [← h.contains_iff, hseen]
      exact Bool.false_ne_true
    rw [if_neg Bool.false_ne_true]
    constructor
    · intro j
      rw [contains_insert, Bool.or_eq_true, h.contains_iff, beq_iff_eq, hkey, List.mem_append,
        List.mem_singleton]
    · rw [← List.concat_eq_append]
      exact .concat hfresh h.nodup

namespace Notices
variable {n : Notices} {told : List Event}

/-- No two forwarded addresses of interfaces share a text in the set of bad ones. -/
theorem ipKey_eq_iff {mac mac' : Mac} {ip ip' : String} :
    ipKey mac ip = ipKey mac' ip' ↔ (mac.text, ip) = (mac'.text, ip') := by
  constructor
  · intro h
    have hchars : mac.text.toList ++ ' ' :: ip.toList =
        mac'.text.toList ++ ' ' :: ip'.toList := by
      have hlists := congrArg String.toList h
      simp only [ipKey, String.toList_append, List.append_assoc] at hlists
      exact hlists
    obtain ⟨hmac, hip⟩ := List.append_inj hchars (mac.length_text.trans mac'.length_text.symm)
    rw [String.toList_inj.mp hmac, String.toList_inj.mp (List.cons.inj hip).2]
  · intro h
    obtain ⟨hmac, hip⟩ := Prod.mk.inj h
    rw [ipKey, ipKey, hmac, hip]

/-- The bad input that is remembered is what was told, and nothing was told twice. -/
structure Tells (n : Notices) (told : List Event) : Prop where
  macs : n.macs.Remembers id id (told.filterMap Event.badMac?)
  ips : n.ips.Remembers (fun pair : Mac × String => ipKey pair.1 pair.2)
    (fun pair => (pair.1.text, pair.2)) (told.filterMap Event.badIp?)

theorem tells_nil : Tells {} [] where
  macs := ⟨fun raw => by simp [BadInputSet.contains], .nil⟩
  ips := ⟨fun pair => by simp [BadInputSet.contains], .nil⟩

namespace Tells

/-- Events that are not about bad input change nothing. -/
theorem append (h : n.Tells told) {events : List Event}
    (hevents : ∀ e ∈ events, e.isComplaint = false) : n.Tells (told ++ events) := by
  have hmacs : events.filterMap Event.badMac? = [] := List.filterMap_eq_nil_iff.mpr
    fun e he => Event.badMac?_of_not_isComplaint (hevents e he)
  have hips : events.filterMap Event.badIp? = [] := List.filterMap_eq_nil_iff.mpr
    fun e he => Event.badIp?_of_not_isComplaint (hevents e he)
  constructor
  · rw [List.filterMap_append, hmacs, List.append_nil]
    exact h.macs
  · rw [List.filterMap_append, hips, List.append_nil]
    exact h.ips

theorem badMac (h : n.Tells told) (raw reason : String) :
    (n.badMac raw reason).2.Tells (told ++ (n.badMac raw reason).1) := by
  rw [badMac_eq]
  constructor
  · have hmacs : (if n.macs.contains raw then [] else [.badInterface raw reason]).filterMap
        Event.badMac? = if n.macs.contains raw then [] else [raw] := by
      split <;> rfl
    rw [List.filterMap_append, hmacs]
    exact h.macs.insert (fun i j => .rfl) raw
  · have hips : (if n.macs.contains raw then [] else [.badInterface raw reason]).filterMap
        Event.badIp? = [] := by
      split <;> rfl
    rw [List.filterMap_append, hips, List.append_nil]
    exact h.ips

theorem badIp (h : n.Tells told) (mac : Mac) (ip : String) :
    (n.badIp mac ip).2.Tells (told ++ (n.badIp mac ip).1) := by
  rw [badIp_eq]
  constructor
  · have hmacs : (if n.ips.contains (ipKey mac ip) then []
        else [.badForwardedIp mac.text ip]).filterMap Event.badMac? = [] := by
      split <;> rfl
    rw [List.filterMap_append, hmacs, List.append_nil]
    exact h.macs
  · have hips : (if n.ips.contains (ipKey mac ip) then []
        else [.badForwardedIp mac.text ip]).filterMap Event.badIp? =
          if n.ips.contains (ipKey mac ip) then [] else [(mac.text, ip)] := by
      split <;> rfl
    rw [List.filterMap_append, hips]
    exact h.ips.insert (fun i j => ipKey_eq_iff) (mac, ip)

/-- What every single telling keeps, telling of things in order keeps. -/
theorem tellAll {α : Type} {tell : Notices → α → List Event × Notices}
    (hstep : ∀ n told a, Tells n told → (tell n a).2.Tells (told ++ (tell n a).1))
    (h : n.Tells told) (as : List α) :
    (tellAll tell n as).2.Tells (told ++ (tellAll tell n as).1) := by
  induction as generalizing n told with
  | nil => exact h.append fun e he => absurd he List.not_mem_nil
  | cons a as ih =>
    rw [tellAll_cons, ← List.append_assoc]
    exact ih (hstep n told a h)

theorem tell (h : n.Tells told) (v : Visit) : (n.tell v).2.Tells (told ++ (n.tell v).1) := by
  cases v with
  | unparseable raw => exact h.badMac raw _
  | unmatched raw mac => exact h.badMac raw _
  | unreadable mac iface fault => exact h.append fun e he => absurd he List.not_mem_nil
  | unrecorded mac iface fault => exact h.append fun e he => absurd he List.not_mem_nil
  | reconciled w =>
    have hbad := h.tellAll (fun n told ip h => h.badIp w.mac ip) w.rejected
    have hchanged := hbad.append (forall_changeEvent w fun _ _ => by rfl)
    have hall := hchanged.append (forall_failureEvents w (fun _ _ => by rfl) fun _ _ => by rfl)
    rw [List.append_assoc, List.append_assoc, ← List.append_assoc _ (changeEvent w)] at hall
    exact hall

end Tells
end Notices

/-- What is remembered of bad input goes on being what was told when a command is carried out. -/
theorem Engine.tells_perform {N : Type} [Site N] {e : Engine} {told : List Event} (c : Command)
    (o : Observed N) (h : e.notices.Tells told) :
    ((e.perform c).run o).1.engine.notices.Tells (told ++ ((e.perform c).run o).1.events) := by
  have hstatus : ∀ ev ∈ e.statusEvents c, ev.isComplaint = false := by
    intro ev hev
    obtain ⟨flag, rfl⟩ := status_of_mem hev
    rfl
  have hcompleted : ∀ ev ∈ ((e.perform c).run o).1.answer.completion, ev.isComplaint = false := by
    intro ev hev
    obtain ⟨r, -, rfl⟩ := List.mem_map.mp hev
    rfl
  have hpassages := (h.append hstatus).tellAll (fun n told v h => h.tell v)
    ((e.passages c o).map (·.visit))
  have hall := hpassages.append hcompleted
  rw [Notices.tellAll_visits] at hall
  rw [notices_perform, perform_events, List.append_assoc, ← List.append_assoc told]
  rw [List.append_assoc (told ++ _)] at hall
  exact hall

/-- A declared interface without the texts that are no addresses. -/
def DeclaredInterface.readable (d : DeclaredInterface) : DeclaredInterface :=
  { d with forwardedIps := d.forwardedIps.filter IpAddr.isIp }

namespace Visit
variable {N : Type} [Site N]

theorem wantedOf_filter (declared : List String) :
    wantedOf (declared.filter IpAddr.isIp) = wantedOf declared := by
  rw [wantedOf, wantedOf, eraseDups_filter, List.filter_filter]
  simp only [Bool.and_self]

/-- Texts that are no addresses make no difference to what a visit does. -/
theorem run_readable (live : List LiveInterface) (d : DeclaredInterface) (n : N) :
    ((run live d.readable).run n).2 = ((run live d).run n).2 := by
  rcases run_of_mac live d.mac n with ⟨v, n', hrun⟩ | ⟨mac, iface, bound, recorded, n', -, hrun⟩
  · have hreadable : (run live d.readable).run n = (v, n') := hrun _
    have hall : (run live d).run n = (v, n') := hrun d.forwardedIps
    rw [hreadable, hall]
  · have hreadable := congrArg (·.2) (hrun (d.forwardedIps.filter IpAddr.isIp))
    have hall := congrArg (·.2) (hrun d.forwardedIps)
    refine hreadable.trans (Eq.trans ?_ hall.symm)
    unfold carryOut
    rw [wantedOf_filter]
    rfl

/-- Work that was done rejects every declared text that is no address. -/
theorem rejected_of_run {live : List LiveInterface} {d : DeclaredInterface} {n n' : N} {w : Work}
    (h : (run live d).run n = (.reconciled w, n')) : w.rejected = rejectedOf d.forwardedIps := by
  cases goes h with
  | reconciled r =>
    have hrun := run_reconciled r.matchedBy r.addresses_run r.read_run r.recorded_eq rfl
    rw [h] at hrun
    rw [Visit.reconciled.inj (Prod.mk.inj hrun).1]

theorem mem_rejectedOf {declared : List String} {ip : String} :
    ip ∈ rejectedOf declared ↔ ip ∈ declared ∧ IpAddr.isIp ip = false := by
  simp [rejectedOf]

end Visit

namespace Passage
variable {N : Type} [Site N]

/-- A passage is a visit from the site before it. -/
theorem run_of_mem_ofVisits {live : List LiveInterface} {ds : List DeclaredInterface} {n : N}
    {p : Passage N} (hp : p ∈ ofVisits live ds n) :
    (Visit.run p.live p.declared).run p.before = (p.visit, p.after) := by
  induction ds generalizing n with
  | nil => cases hp
  | cons d ds ih =>
    rcases List.mem_cons.mp hp with rfl | hp
    · rfl
    · exact ih hp

theorem run_of_mem_ofPass {ds : List DeclaredInterface} {n : N} {p : Passage N}
    (hp : p ∈ ofPass ds n) : (Visit.run p.live p.declared).run p.before = (p.visit, p.after) := by
  unfold ofPass at hp
  split at hp
  · cases hp
  · exact run_of_mem_ofVisits hp

/-- The bad input of a passage was told, then or before, and is left out: an interface that is not
matched is skipped, and a text that is no address makes no difference to any call. -/
structure BadInputTold (p : Passage (Observed N)) (told : List Event) : Prop where
  mac_told : (∀ mac iface, ¬p.declared.MatchedBy p.live mac iface) →
    p.declared.mac ∈ told.filterMap Event.badMac?
  mac_skipped : (∀ mac iface, ¬p.declared.MatchedBy p.live mac iface) →
    p.after = p.before ∧ p.visit.work? = none
  ips_told : ¬p.Skipped → ∀ mac, Mac.parse? p.declared.mac = some mac →
    ∀ ip ∈ p.declared.forwardedIps, IpAddr.isIp ip = false →
      (mac.text, ip) ∈ told.filterMap Event.badIp?
  ips_unused : ((Visit.run p.live p.declared.readable).run p.before).2 = p.after
  ips_unrecorded : ∀ key ips answer, .writeRecord key ips answer ∈ p.calls →
    ∀ ip ∈ ips, IpAddr.isIp ip = true

namespace Goes
variable {p : Passage (Observed N)}

theorem of_unmatched (g : p.Goes) (h : ∀ mac iface, ¬p.declared.MatchedBy p.live mac iface) :
    p.after = p.before ∧ p.visit.work? = none ∧ p.visit.badMacs = [p.declared.mac] := by
  obtain ⟨live, d, o, v, o'⟩ := p
  change Visit.Goes live d o v o' at g
  cases g with
  | unparseable hmac => exact ⟨rfl, rfl, rfl⟩
  | unmatched hmac hmatch => exact ⟨rfl, rfl, rfl⟩
  | unreadable hmac hmatch haddresses => exact absurd ⟨hmac, hmatch⟩ (h _ _)
  | unrecorded hmac hmatch haddresses hread hfault => exact absurd ⟨hmac, hmatch⟩ (h _ _)
  | reconciled r => exact absurd r.matchedBy (h _ _)

/-- A record that is written has addresses alone. -/
theorem isIp_of_write (g : p.Goes) {key : String} {ips : List String}
    {answer : Except Fault Unit} (hcall : .writeRecord key ips answer ∈ p.calls) :
    ∀ ip ∈ ips, IpAddr.isIp ip = true := by
  obtain ⟨w, ⟨r⟩⟩ := g.reconciliation hcall rfl
  rw [calls_of_reconciliation r] at hcall
  obtain ⟨-, rfl, -⟩ := r.write_of_call hcall
  exact fun ip hip => r.isIp_of_mem_next hip

end Goes

/-- What stands for the bad forwarded addresses of an interface that is not skipped. -/
theorem badIps_of_done {p : Passage (Observed N)} (g : p.Goes)
    (hrun : (Visit.run p.live p.declared).run p.before = (p.visit, p.after)) (hdone : ¬p.Skipped)
    {mac : Mac} (hmac : Mac.parse? p.declared.mac = some mac) {ip : String}
    (hip : ip ∈ p.declared.forwardedIps) (hbad : IpAddr.isIp ip = false) :
    Notices.ipKey mac ip ∈ p.visit.badIps := by
  rw [g.skipped_iff] at hdone
  obtain ⟨live, d, o, v, o'⟩ := p
  change Visit.Goes live d o v o' at g
  cases g with
  | @reconciled w _ r =>
    obtain rfl : w.mac = mac := Option.some.inj (r.mac_eq.symm.trans hmac)
    rw [Visit.badIps, Visit.rejected_of_run hrun]
    exact List.mem_map_of_mem (Visit.mem_rejectedOf.mpr ⟨hip, hbad⟩)
  | unparseable hmac => exact absurd rfl hdone
  | unmatched hmac hmatch => exact absurd rfl hdone
  | unreadable hmac hmatch haddresses => exact absurd rfl hdone
  | unrecorded hmac hmatch haddresses hread hfault => exact absurd rfl hdone

end Passage

namespace Engine
variable {N : Type} [Site N] {e : Engine} {c : Command} {o : Observed N} {told : List Event}

theorem run_of_mem_passages {p : Passage N} {n : N} (hp : p ∈ e.passages c n) :
    (Visit.run p.live p.declared).run p.before = (p.visit, p.after) := by
  unfold passages at hp
  split at hp
  · cases hp
  · exact Passage.run_of_mem_ofPass hp

/-- The bad input of a command's passages is told once the command is carried out. -/
theorem badInputTold (h : e.notices.Tells told) {p : Passage (Observed N)}
    (hp : p ∈ e.passages c o) :
    p.BadInputTold (told ++ ((e.perform c).run o).1.events) := by
  have hgoes := (chain_perform Passage.between_quiet e c o).goes_of_mem hp
  have hrun := run_of_mem_passages hp
  have htells := tells_perform c o h
  have hvisit : p.visit ∈ (e.passages c o).map (·.visit) := List.mem_map_of_mem hp
  constructor
  · intro hunmatched
    refine (htells.macs.contains_iff p.declared.mac).mp ?_
    rw [notices_perform, id]
    refine (Notices.tellAll_contains _ _ _).1.mpr (.inr ⟨p.visit, hvisit, ?_⟩)
    rw [(hgoes.of_unmatched hunmatched).2.2]
    exact List.mem_cons_self
  · intro hunmatched
    obtain ⟨hafter, hskip, -⟩ := hgoes.of_unmatched hunmatched
    exact ⟨hafter, hskip⟩
  · intro hdone mac hmac ip hip hbad
    refine (htells.ips.contains_iff (mac, ip)).mp ?_
    rw [notices_perform]
    exact (Notices.tellAll_contains _ _ _).2.mpr
      (.inr ⟨p.visit, hvisit, Passage.badIps_of_done hgoes hrun hdone hmac hip hbad⟩)
  · rw [Visit.run_readable, hrun]
  · exact fun key ips answer hcall => hgoes.isIp_of_write hcall

end Engine

namespace Managed
variable {N : Type} [Site N]

/-- The bad input that is remembered in a run is what was told in it. -/
theorem tells_run (overrides : LocalConfig) (o : Observed N) (hs : List (Happening N)) :
    let m : Managed N := ⟨Engine.fresh overrides, o⟩
    (m.run hs).engine.notices.Tells (m.events hs) := by
  intro m
  let Good (e : Engine) (told : List Event) : Prop := e.notices.Tells told
  have hstart : Good m.engine [] := Notices.tells_nil
  have hstep : ∀ e told c (o : Observed N), Good e told →
      Good ((e.perform c).run o).1.engine (told ++ ((e.perform c).run o).1.events) :=
    fun e told c o h => Engine.tells_perform c o h
  exact keeps_told hstep hstart hs

/-- Bad input is told exactly once. Whatever happens to a fresh reconciler, no text of a hardware
address is told twice, and no forwarded address is told twice of one hardware address. At the end
of every pass all bad input of its passages was told, and no pass makes anything of it. -/
theorem bad_input_told_once (overrides : LocalConfig) (o : Observed N)
    (hs : List (Happening N)) :
    let m : Managed N := ⟨Engine.fresh overrides, o⟩
    ((m.events hs).filterMap Event.badMac?).Nodup ∧
    ((m.events hs).filterMap Event.badIp?).Nodup ∧
    ∀ before t since, m.turns hs = before ++ t :: since → ∀ p ∈ t.passages,
      p.BadInputTold ((before ++ [t]).flatMap Turn.events) := by
  intro m
  have htells := tells_run overrides o hs
  refine ⟨htells.macs.nodup, htells.ips.nodup, fun before t since hsplit p hp => ?_⟩
  obtain ⟨past, future, -, hstart, rfl, -⟩ := turns_split hsplit
  obtain ⟨start, happening⟩ := t
  obtain rfl : start = m.run past := hstart
  cases happening with
  | outside change => cases hp
  | command c =>
    have hpast := tells_run overrides o past
    have htold := Engine.badInputTold (c := c) hpast hp
    rw [List.flatMap_append, List.flatMap_singleton]
    exact htold

/-- An interface with a text that is no address, and one with a text that is no hardware address. -/
def mistyped : Snapshot where
  interfaces := [⟨"02:00:00:00:00:0a", ["10.0.0.5", "10.0.0.256"]⟩, ⟨"eth2", ["10.0.0.6"]⟩]

/-- The first of two passes over it. -/
def mistypedTurn : Turn (Machine MemoryHost MemoryLedger) :=
  ⟨⟨Engine.fresh {}, flaggedSite⟩, .command (.reconcile mistyped)⟩

/-- The second one. -/
def mistypedAgain : Turn (Machine MemoryHost MemoryLedger) :=
  ⟨mistypedTurn.finish, .command (.apply mistyped)⟩

theorem mistyped_told_once :
    ([mistypedTurn, mistypedAgain].flatMap Turn.events).filterMap Event.badMac? = ["eth2"] ∧
    ([mistypedTurn, mistypedAgain].flatMap Turn.events).filterMap Event.badIp? =
      [("02:00:00:00:00:0a", "10.0.0.256")] ∧
    mistypedAgain.passages.length = 2 ∧
    ∀ p ∈ mistypedAgain.passages,
      p.BadInputTold ([mistypedTurn, mistypedAgain].flatMap Turn.events) := by
  obtain ⟨-, -, htold⟩ := bad_input_told_once {} flaggedSite
    [mistypedTurn.happening, mistypedAgain.happening]
  exact ⟨by decide +kernel, by decide +kernel, by decide +kernel,
    htold [mistypedTurn] mistypedAgain [] rfl⟩

end Managed
end ForwardedIp
