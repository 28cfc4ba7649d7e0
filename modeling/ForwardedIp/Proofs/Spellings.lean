import ForwardedIp.Proofs.DeclarationOrder
import ForwardedIp.Proofs.ToldEvents
/-!
# The spelling of a hardware address does not matter

A declared hardware address may be written with other separators or in other letters. A pass over
the other spellings makes the same calls with the same answers, reports the same, and leaves the
same site. It also tells the same, but for one thing: that no interface has some address is told by
the text it was declared with, once for each text.
-/
namespace ForwardedIp

/-- Two interfaces are declared alike, but for the spelling of their hardware address. -/
structure DeclaredInterface.Respelled (d d' : DeclaredInterface) : Prop where
  mac : d.mac = d'.mac ∨ ∃ mac, Mac.parse? d.mac = some mac ∧ Mac.parse? d'.mac = some mac
  forwardedIps_eq : d.forwardedIps = d'.forwardedIps

/-- Two snapshots differ in nothing but the spelling of hardware addresses. -/
structure Snapshot.Respelled (s s' : Snapshot) : Prop where
  instanceAttributes_eq : s.instanceAttributes = s'.instanceAttributes
  projectAttributes_eq : s.projectAttributes = s'.projectAttributes
  interfaces : List.Forall₂ DeclaredInterface.Respelled s.interfaces s'.interfaces

/-- Visits of two spellings come to the same, or find no interface with the address. -/
inductive Visit.Respelled (live : List LiveInterface) (d d' : DeclaredInterface) :
    Visit → Visit → Prop where
  | same {v : Visit} (hmacs : ∀ raw ∈ v.badMacs, Mac.parse? raw = none) : Respelled live d d' v v
  | unmatched {mac : Mac} (hmac : Mac.parse? d.mac = some mac)
      (hmac' : Mac.parse? d'.mac = some mac) (hnone : Visit.matching? live mac = none) :
      Respelled live d d' (.unmatched d.mac mac) (.unmatched d'.mac mac)

/-- Two passages do the same for two spellings of an address. -/
structure Passage.Respelled {N : Type} (p p' : Passage N) : Prop where
  live_eq : p.live = p'.live
  declared : p.declared.Respelled p'.declared
  before_eq : p.before = p'.before
  after_eq : p.after = p'.after
  visit : Visit.Respelled p.live p.declared p'.declared p.visit p'.visit

/-- Nothing is told of a passage, or that no interface has its address. -/
def Account.OfUnmatched {N : Type} (a : Account N) (mac : Mac) : Prop :=
  Mac.parse? a.passage.declared.mac = some mac ∧
    a.events.Sublist [.badInterface a.passage.declared.mac (Notices.unmatchedReason mac)]

/-- Two passages do the same for two spellings of an address, and the same is told of them unless
no interface has the address. -/
structure Account.Respelled {N : Type} (a a' : Account N) : Prop where
  passage : a.passage.Respelled a'.passage
  events : a.events = a'.events ∨ ∃ mac, Visit.matching? a.passage.live mac = none ∧
    a.OfUnmatched mac ∧ a'.OfUnmatched mac

/-- The same was told, but for the texts of hardware addresses that no interface has. -/
structure Notices.Respelled (live : List LiveInterface) (n n' : Notices) : Prop where
  ips_eq : n.ips = n'.ips
  macs : ∀ raw, n.macs.contains raw = n'.macs.contains raw ∨
    ∃ mac, Mac.parse? raw = some mac ∧ Visit.matching? live mac = none

namespace DeclaredInterface.Respelled
variable {d d' : DeclaredInterface} {mac : Mac}

theorem mac_eq_of_none (h : d.Respelled d') (hmac : Mac.parse? d.mac = none) : d.mac = d'.mac := by
  rcases h.mac with heq | ⟨mac, hsome, -⟩
  · exact heq
  · rw [hmac] at hsome
    cases hsome

theorem parse?_eq (h : d.Respelled d') : Mac.parse? d.mac = Mac.parse? d'.mac := by
  rcases h.mac with heq | ⟨mac, hmac, hmac'⟩
  · rw [heq]
  · rw [hmac, hmac']

theorem exclusion (h : d.Respelled d') (s : Settings) :
    ({ d with forwardedIps := Exclusion.keep s d.forwardedIps } : DeclaredInterface).Respelled
      { d' with forwardedIps := Exclusion.keep s d'.forwardedIps } where
  mac := h.mac
  forwardedIps_eq := congrArg (Exclusion.keep s) h.forwardedIps_eq

end DeclaredInterface.Respelled

namespace Visit
variable {N : Type} [Site N] {live : List LiveInterface} {d d' : DeclaredInterface} {mac : Mac}
  {iface : LiveInterface}

/-- Once the interface is known, the text of its address is not looked at. -/
theorem run_congr (hmatch : d.MatchedBy live mac iface) (hmatch' : d'.MatchedBy live mac iface)
    (hips : d.forwardedIps = d'.forwardedIps) :
    run (N := N) live d = run live d' := by
  unfold run
  simp only [hmatch.mac_eq, hmatch'.mac_eq, hmatch.iface_eq, hips]

theorem badMacs_of_matched {v : Visit} {n n' : N} (g : Goes live d n v n')
    (hmatch : d.MatchedBy live mac iface) : v.badMacs = [] := by
  cases g with
  | unparseable hmac =>
    rw [hmatch.mac_eq] at hmac
    cases hmac
  | unmatched hmac hnone =>
    obtain rfl := Option.some.inj (hmac.symm.trans hmatch.mac_eq)
    rw [hmatch.iface_eq] at hnone
    cases hnone
  | unreadable hmac hiface haddresses => rfl
  | unrecorded hmac hiface haddresses hread hfault => rfl
  | reconciled r => rfl

theorem run_respelled (h : d.Respelled d') (live : List LiveInterface) (n : N) :
    Respelled live d d' ((run live d).run n).1 ((run live d').run n).1 ∧
      ((run live d).run n).2 = ((run live d').run n).2 := by
  have hparse := h.parse?_eq
  cases hmac : Mac.parse? d.mac with
  | none =>
    have heq := h.mac_eq_of_none hmac
    rw [run_unparseable hmac, run_unparseable (heq ▸ hmac), ← heq]
    exact ⟨.same fun raw hraw => (List.mem_singleton.mp hraw) ▸ hmac, rfl⟩
  | some mac =>
    have hmac' := hparse.symm.trans hmac
    cases hiface : matching? live mac with
    | none =>
      rw [run_unmatched hmac hiface, run_unmatched hmac' hiface]
      exact ⟨.unmatched hmac hmac' hiface, rfl⟩
    | some iface =>
      rw [← run_congr ⟨hmac, hiface⟩ ⟨hmac', hiface⟩ h.forwardedIps_eq]
      refine ⟨.same fun raw hraw => ?_, rfl⟩
      have hgoes : Goes live d n ((run live d).run n).1 ((run live d).run n).2 := goes rfl
      rw [badMacs_of_matched hgoes ⟨hmac, hiface⟩] at hraw
      cases hraw

end Visit

namespace Notices
variable {N : Type} {live : List LiveInterface} {n n' : Notices} {v : Visit}

theorem respelled_refl (live : List LiveInterface) (n : Notices) : Respelled live n n :=
  ⟨rfl, fun _ => .inl rfl⟩

/-- What is told of bad forwarded addresses depends on those told before and on nothing else. -/
theorem tellAll_badIp_congr (h : n.ips = n'.ips) (mac : Mac) (ips : List String) :
    (tellAll (fun n => n.badIp mac) n ips).1 = (tellAll (fun n => n.badIp mac) n' ips).1 ∧
      (tellAll (fun n => n.badIp mac) n ips).2.ips =
        (tellAll (fun n => n.badIp mac) n' ips).2.ips := by
  induction ips generalizing n n' with
  | nil => exact ⟨rfl, h⟩
  | cons ip ips ih =>
    have hfirst : (n.badIp mac ip).1 = (n'.badIp mac ip).1 ∧
        (n.badIp mac ip).2.ips = (n'.badIp mac ip).2.ips := by
      simp only [badIp, h, and_self]
    obtain ⟨hevents, hips⟩ := ih hfirst.2
    rw [tellAll_cons, tellAll_cons, hfirst.1, hevents, hips]
    exact ⟨rfl, rfl⟩

theorem contains_badMac (n : Notices) (raw reason other : String) :
    (n.badMac raw reason).2.macs.contains other = (n.macs.contains other || other == raw) := by
  rw [badMac_eq, BadInputSet.contains_insert]

theorem sublist_badMac (n : Notices) (raw reason : String) :
    (n.badMac raw reason).1.Sublist [.badInterface raw reason] := by
  rw [badMac_eq]
  split
  · exact List.nil_sublist _
  · exact List.Sublist.refl _

namespace Respelled

theorem badMac (h : Respelled live n n') (raw reason : String) :
    Respelled live (n.badMac raw reason).2 (n'.badMac raw reason).2 where
  ips_eq := h.ips_eq
  macs other := by
    rw [contains_badMac, contains_badMac]
    exact (h.macs other).imp_left fun heq => by rw [heq]

theorem badMac_events (h : Respelled live n n') {raw : String} (hraw : Mac.parse? raw = none)
    (reason : String) : (n.badMac raw reason).1 = (n'.badMac raw reason).1 := by
  rcases h.macs raw with heq | ⟨mac, hmac, -⟩
  · rw [badMac_eq, badMac_eq, heq]
  · rw [hraw] at hmac
    cases hmac

/-- Telling of a text of an address that no interface has changes nothing else. -/
theorem badMac_left (h : Respelled live n n') {raw : String} {mac : Mac}
    (hmac : Mac.parse? raw = some mac) (hnone : Visit.matching? live mac = none) (reason : String) :
    Respelled live (n.badMac raw reason).2 n' where
  ips_eq := h.ips_eq
  macs other := by
    rw [contains_badMac]
    by_cases hother : other = raw
    · exact .inr ⟨mac, hother ▸ hmac, hnone⟩
    · have hne : (other == raw) = false := by simpa using hother
      rw [hne, Bool.or_false]
      exact h.macs other

theorem symm (h : Respelled live n n') : Respelled live n' n where
  ips_eq := h.ips_eq.symm
  macs other := (h.macs other).imp_left Eq.symm

theorem tell_same (h : Respelled live n n') (hmacs : ∀ raw ∈ v.badMacs, Mac.parse? raw = none) :
    Respelled live (n.tell v).2 (n'.tell v).2 ∧ (n.tell v).1 = (n'.tell v).1 := by
  cases v with
  | unparseable raw =>
    have hraw : Mac.parse? raw = none := hmacs raw List.mem_cons_self
    exact ⟨h.badMac raw _, h.badMac_events hraw _⟩
  | unmatched raw mac =>
    have hraw : Mac.parse? raw = none := hmacs raw List.mem_cons_self
    exact ⟨h.badMac raw _, h.badMac_events hraw _⟩
  | unreadable mac iface fault => exact ⟨h, rfl⟩
  | unrecorded mac iface fault => exact ⟨h, rfl⟩
  | reconciled w =>
    obtain ⟨hevents, hips⟩ := tellAll_badIp_congr h.ips_eq w.mac w.rejected
    constructor
    · refine ⟨hips, fun raw => ?_⟩
      have hbefore := h.macs raw
      rw [← (tellAll_badIp n w.mac w.rejected).1,
        ← (tellAll_badIp n' w.mac w.rejected).1] at hbefore
      exact hbefore
    · simp only [tell, hevents]

/-- Once the same was told but for such texts, the same is told of a passage but for them. -/
theorem tell (h : Respelled live n n') {p p' : Passage N} (hp : p.Respelled p')
    (hlive : p.live = live) :
    Respelled live (n.tell p.visit).2 (n'.tell p'.visit).2 ∧
      Account.Respelled ⟨p, (n.tell p.visit).1⟩ ⟨p', (n'.tell p'.visit).1⟩ := by
  subst hlive
  have hvisit := hp.visit
  generalize p.visit = v at hvisit
  generalize p'.visit = v' at hvisit
  cases hvisit with
  | same hmacs =>
    obtain ⟨hnotices, hevents⟩ := h.tell_same hmacs
    exact ⟨hnotices, hp, .inl hevents⟩
  | @unmatched mac hmac hmac' hnone =>
    have hleft := h.badMac_left hmac hnone (unmatchedReason mac)
    have hboth := (hleft.symm.badMac_left hmac' hnone (unmatchedReason mac)).symm
    refine ⟨hboth, hp, .inr ⟨mac, hnone, ⟨hmac, ?_⟩, hmac', ?_⟩⟩
    · exact sublist_badMac n p.declared.mac (unmatchedReason mac)
    · exact sublist_badMac n' p'.declared.mac (unmatchedReason mac)

theorem accounts (h : Respelled live n n') {ps ps' : List (Passage N)}
    (hps : List.Forall₂ Passage.Respelled ps ps') (hlive : ∀ p ∈ ps, p.live = live) :
    List.Forall₂ Account.Respelled (n.accounts ps) (n'.accounts ps') ∧
      Respelled live (tellAll Notices.tell n (ps.map (·.visit))).2
        (tellAll Notices.tell n' (ps'.map (·.visit))).2 := by
  induction hps generalizing n n' with
  | nil => exact ⟨.nil, h⟩
  | @cons p p' ps ps' hp hps ih =>
    obtain ⟨hfirst, hrest⟩ := List.forall_mem_cons.mp hlive
    obtain ⟨hnotices, haccount⟩ := h.tell hp hfirst
    obtain ⟨haccounts, hlast⟩ := ih hnotices hrest
    rw [List.map_cons, List.map_cons, tellAll_cons, tellAll_cons]
    exact ⟨.cons haccount haccounts, hlast⟩

end Respelled
end Notices

namespace Passage
variable {N : Type} [Site N] {live : List LiveInterface} {ds ds' : List DeclaredInterface}

/-- Visits of two spellings go the same way through a site. -/
theorem ofVisits_respelled (h : List.Forall₂ DeclaredInterface.Respelled ds ds')
    (live : List LiveInterface) (n : N) :
    List.Forall₂ Passage.Respelled (ofVisits live ds n) (ofVisits live ds' n) ∧
      finish live ds n = finish live ds' n := by
  induction h generalizing n with
  | nil => exact ⟨.nil, rfl⟩
  | @cons d d' ds ds' hd hds ih =>
    obtain ⟨hvisit, hsite⟩ := Visit.run_respelled hd live n
    obtain ⟨hpassages, hfinish⟩ := ih ((Visit.run live d).run n).2
    have hlater : ofVisits live ds' ((Visit.run live d).run n).2 =
        ofVisits live ds' ((Visit.run live d').run n).2 := congrArg _ hsite
    rw [hlater] at hpassages
    rw [finish_cons, finish_cons, ← hsite]
    exact ⟨.cons ⟨rfl, hd, rfl, hsite, hvisit⟩ hpassages, hfinish⟩

omit [Site N] in
/-- Visits of two spellings count the same. -/
theorem report_respelled {ps ps' : List (Passage N)}
    (h : List.Forall₂ Passage.Respelled ps ps') :
    Report.ofVisits (ps.map (·.visit)) = Report.ofVisits (ps'.map (·.visit)) := by
  rw [Report.ofVisits_eq_sum, Report.ofVisits_eq_sum, List.map_map, List.map_map]
  have hcounts : ps.map (fun p => Report.add {} p.visit) =
      ps'.map (fun p => Report.add {} p.visit) := by
    refine map_congr_of_forall₂ (h.imp fun p p' hp => ?_)
    have hvisit := hp.visit
    generalize p.visit = v at hvisit ⊢
    generalize p'.visit = v' at hvisit ⊢
    cases hvisit with
    | same hmacs => rfl
    | unmatched hmac hmac' hnone => rfl
  exact congrArg (List.foldl Report.plus {}) hcounts

end Passage

namespace Engine
variable {N : Type} [Site N] {s s' : Snapshot}

theorem declaration_respelled (h : s.Respelled s') (e : Engine) :
    List.Forall₂ DeclaredInterface.Respelled (e.declaration s) (e.declaration s') := by
  have hsettings : e.settings s = e.settings s' := by
    simp only [settings, Settings.resolve, Settings.resolveEnabled, Settings.resolveAddresses,
      Settings.resolveDisabled, h.instanceAttributes_eq, h.projectAttributes_eq]
  rw [declaration, declaration, ← hsettings]
  refine List.forall₂_map_left_iff.mpr (List.forall₂_map_right_iff.mpr ?_)
  exact h.interfaces.imp fun d d' hd => hd.exclusion (e.settings s)

variable {live : List LiveInterface} {o o₁ : Observed N}

/-- A pass over listed interfaces counts its passages, tells of them, and remembers the bad input
among them. -/
theorem apply_passages (hlisted : Site.interfaces.run o = (.ok live, o₁)) (e : Engine)
    (s : Snapshot) : let ps := Passage.ofVisits live (e.declaration s) o₁
    ((e.apply s).run o).1.answer = .ok (Report.ofVisits (ps.map (·.visit))) ∧
      ((e.apply s).run o).1.engine =
        { e with
          notices := (Notices.tellAll Notices.tell e.notices (ps.map (·.visit))).2
          retryPending := (Report.ofVisits (ps.map (·.visit))).hasFailures } := by
  intro ps
  rw [Passage.map_visit_ofVisits]
  unfold apply
  rw [run_bind hlisted]
  exact ⟨rfl, rfl⟩

theorem completion_report (answer : Except Fault Report) :
    (Answer.report answer).completion =
      answer.toOption.toList.map fun r => .cycleCompleted r.reconciled r.skipped := by
  cases answer <;> rfl

theorem apply_respelled_of_listed (h : s.Respelled s')
    (hlisted : Site.interfaces.run o = (.ok live, o₁)) (e : Engine) :
    ((e.apply s').run o).1.answer = ((e.apply s).run o).1.answer ∧
    ((e.apply s').run o).2 = ((e.apply s).run o).2 ∧
    List.Forall₂ Account.Respelled (e.accounts (.apply s) o) (e.accounts (.apply s') o) ∧
    ((e.apply s').run o).1.engine = { ((e.apply s).run o).1.engine with
      notices := ((e.apply s').run o).1.engine.notices } ∧
    ((e.apply s).run o).1.engine.notices.Respelled live
      ((e.apply s').run o).1.engine.notices := by
  obtain ⟨hvisits, hfinish⟩ := Passage.ofVisits_respelled (declaration_respelled h e) live o₁
  obtain ⟨hanswer, hengine⟩ := apply_passages hlisted e s
  obtain ⟨hanswer', hengine'⟩ := apply_passages hlisted e s'
  obtain ⟨-, hsite, hpassages⟩ := apply_listed (e := e) (s := s) hlisted
  obtain ⟨-, hsite', hpassages'⟩ := apply_listed (e := e) (s := s') hlisted
  have hreport := Passage.report_respelled hvisits
  obtain ⟨haccounts, hnotices⟩ := (Notices.respelled_refl live e.notices).accounts hvisits
    fun p hp => (Passage.mem_ofVisits hp).1
  rw [hanswer, hanswer', hsite, hsite', hengine, hengine', accounts, accounts, hpassages,
    hpassages', hreport, hfinish]
  exact ⟨rfl, rfl, haccounts, rfl, hnotices⟩

/-- Only a hardware address counts and not its spelling. A pass over other spellings answers the
same, makes the same calls, leaves the same site, and remembers and tells the same, but for the
texts of addresses that no interface has. -/
theorem apply_respelled (h : s.Respelled s') (e : Engine) (o : Observed N) :
    let pass := (e.apply s).run o
    let pass' := (e.apply s').run o
    let completed := (Answer.report pass.1.answer).completion
    pass'.1.answer = pass.1.answer ∧ pass'.2 = pass.2 ∧
    pass.1.events = (e.accounts (.apply s) o).flatMap (·.events) ++ completed ∧
    pass'.1.events = (e.accounts (.apply s') o).flatMap (·.events) ++ completed ∧
    List.Forall₂ Account.Respelled (e.accounts (.apply s) o) (e.accounts (.apply s') o) ∧
    pass'.1.engine = { pass.1.engine with notices := pass'.1.engine.notices } ∧
    ((∃ fault, pass.1.answer = .error fault ∧ pass' = pass) ∨
      ∃ live o₁, Site.interfaces.run o = (.ok live, o₁) ∧
        pass.1.engine.notices.Respelled live pass'.1.engine.notices) := by
  intro pass pass' completed
  have hevents : pass.1.events = (e.accounts (.apply s) o).flatMap (·.events) ++ completed :=
    (e.apply_events s o).trans (congrArg _ (completion_report _).symm)
  have hevents' : pass'.1.events = (e.accounts (.apply s') o).flatMap (·.events) ++
      (Answer.report pass'.1.answer).completion :=
    (e.apply_events s' o).trans (congrArg _ (completion_report _).symm)
  cases hlisted : (Site.interfaces : StateM (Observed N) _).run o with
  | mk listing o₁ =>
  cases listing with
  | error fault =>
    obtain ⟨hpass, hpassages⟩ := apply_unlisted (e := e) (s := s) hlisted
    obtain ⟨hpass', hpassages'⟩ := apply_unlisted (e := e) (s := s') hlisted
    have hsame : pass' = pass := hpass'.trans hpass.symm
    have haccounts : List.Forall₂ Account.Respelled (e.accounts (.apply s) o)
        (e.accounts (.apply s') o) := by
      rw [accounts, accounts, hpassages, hpassages']
      exact .nil
    have hfault : pass.1.answer = .error fault := congrArg (·.1.answer) hpass
    rw [hsame] at hevents' ⊢
    exact ⟨rfl, rfl, hevents, hevents', haccounts, rfl, .inl ⟨fault, hfault, rfl⟩⟩
  | ok live =>
    obtain ⟨hanswer, hsite, haccounts, hengine, hnotices⟩ := apply_respelled_of_listed h hlisted e
    have hcompleted : (Answer.report pass'.1.answer).completion = completed :=
      congrArg (fun answer => (Answer.report answer).completion) hanswer
    rw [hcompleted] at hevents'
    exact ⟨hanswer, hsite, hevents, hevents', haccounts, hengine, .inr ⟨live, o₁, rfl, hnotices⟩⟩

/-- The interface of `Managed.troubled` and two others, one of them with a text that is no hardware
address. -/
def withColons : Snapshot where
  interfaces :=
    [⟨"02:00:00:00:00:0a", ["10.0.0.5", "no-ip"]⟩, ⟨"02:00:00:00:00:0c", []⟩, ⟨"eth2", []⟩]

/-- The same in other spellings. -/
def withHyphens : Snapshot where
  interfaces :=
    [⟨"02-00-00-00-00-0A", ["10.0.0.5", "no-ip"]⟩, ⟨"0200.0000.000C", []⟩, ⟨"eth2", []⟩]

theorem hyphens_respelled : withColons.Respelled withHyphens ∧
    ((apply {} withHyphens).run Managed.troubled.site).2 =
      ((apply {} withColons).run Managed.troubled.site).2 ∧
    List.Forall₂ Account.Respelled (accounts {} (.apply withColons) Managed.troubled.site)
      (accounts {} (.apply withHyphens) Managed.troubled.site) ∧
    ((apply {} withHyphens).run Managed.troubled.site).1.events =
      [.badForwardedIp "02:00:00:00:00:0a" "no-ip",
        .forwardedIpsChanged "02:00:00:00:00:0a" ["10.0.0.5"] ["10.0.0.6"],
        .addressAddFailed "02:00:00:00:00:0a" "10.0.0.5"
          "Network backend error: cannot add 10.0.0.5",
        .badInterface "0200.0000.000C" "no interface with mac 02:00:00:00:00:0c exists on system",
        .badInterface "eth2" (Mac.invalid "eth2").message, .cycleCompleted 1 2] := by
  have hfirst : DeclaredInterface.Respelled ⟨"02:00:00:00:00:0a", ["10.0.0.5", "no-ip"]⟩
      ⟨"02-00-00-00-00-0A", ["10.0.0.5", "no-ip"]⟩ :=
    ⟨.inr ⟨⟨[2, 0, 0, 0, 0, 10], rfl⟩, by decide +kernel, by decide +kernel⟩, rfl⟩
  have hsecond : DeclaredInterface.Respelled ⟨"02:00:00:00:00:0c", []⟩ ⟨"0200.0000.000C", []⟩ :=
    ⟨.inr ⟨⟨[2, 0, 0, 0, 0, 12], rfl⟩, by decide +kernel, by decide +kernel⟩, rfl⟩
  have h : withColons.Respelled withHyphens :=
    ⟨rfl, rfl, .cons hfirst (.cons hsecond (.cons ⟨.inl rfl, rfl⟩ .nil))⟩
  obtain ⟨-, hsite, -, -, haccounts, -⟩ := apply_respelled h {} Managed.troubled.site
  exact ⟨h, hsite, haccounts, by decide +kernel⟩

end Engine
end ForwardedIp
