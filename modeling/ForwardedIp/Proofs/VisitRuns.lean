import ForwardedIp.Proofs.FirstPlaces
import ForwardedIp.Proofs.SiteLaws
import ForwardedIp.Reconciler.Visit
/-!
# How a visit goes

The run of a visit is taken apart into the calls that it makes, with the state of the site between
them. Everything about a visit is then read off its five possible ends: which records it changes,
what it binds and unbinds, and what an observer sees of it.
-/
namespace ForwardedIp

namespace Attempt

/-- The attempt succeeded, on the IP that its text denotes. -/
def Did (a : Attempt) (ip : IpAddr) : Prop := IpAddr.parse? a.ip = some ip ∧ a.answer = .ok ()

/-- The call that an attempt made, unless its text denotes no IP. -/
def call? (call : IpAddr → Except Fault Unit → Call) (a : Attempt) : Option Call :=
  (IpAddr.parse? a.ip).map fun ip => call ip a.answer

theorem call?_of_parse? {call : IpAddr → Except Fault Unit → Call} {text : String} {ip : IpAddr}
    {answer : Except Fault Unit} (h : IpAddr.parse? text = some ip) :
    call? call ⟨text, answer⟩ = some (call ip answer) := by
  rw [call?, h, Option.map_some]

theorem failed_eq_false {a : Attempt} : a.failed = false ↔ a.answer = .ok () := by
  obtain ⟨ip, answer⟩ := a
  cases answer <;> simp [failed, fault?]

/-- The texts of the attempts that failed. -/
def refusals (attempts : List Attempt) : List String :=
  (attempts.filter (·.failed)).map (·.ip)

theorem mem_refusals {attempts : List Attempt} {t : String} :
    t ∈ refusals attempts ↔ ∃ a ∈ attempts, a.failed = true ∧ a.ip = t := by
  simp [refusals, and_assoc]

theorem not_mem_refusals {attempts : List Attempt} {t : String} :
    t ∉ refusals attempts ↔ ∀ a ∈ attempts, a.ip = t → a.failed = false := by
  simp only [mem_refusals, not_exists, not_and, ← Bool.not_eq_true]
  exact forall₂_congr fun a _ => imp_not_comm

end Attempt

namespace Visit

section Records
variable {record wanted : List String} {binds unbinds : List Attempt} {t : String}

/-- Attempts to bind take out of the record what they failed on. -/
theorem foldl_afterBind (record : List String) (binds : List Attempt) :
    binds.foldl afterBind record =
      record.filter fun t => !(Attempt.refusals binds).contains t := by
  induction binds generalizing record with
  | nil => exact (List.filter_eq_self.mpr fun _ _ => rfl).symm
  | cons a binds ih =>
    rw [List.foldl_cons, ih]
    cases ha : a.failed with
    | false => simp [afterBind, Attempt.refusals, ha]
    | true =>
      have hstep : afterBind record a = record.filter (· ≠ a.ip) := if_pos ha
      rw [hstep, List.filter_filter]
      refine List.filter_congr fun t _ => ?_
      simp [Attempt.refusals, ha, Bool.beq_eq_decide_eq, Bool.and_comm]

theorem mem_foldl_afterBind :
    t ∈ binds.foldl afterBind record ↔ t ∈ record ∧ ∀ a ∈ binds, a.ip = t → a.failed = false := by
  rw [foldl_afterBind, List.mem_filter, Bool.not_eq_true', ← Bool.not_eq_true,
    List.contains_iff_mem, Attempt.not_mem_refusals]

theorem mem_foldl_afterUnbind :
    t ∈ unbinds.foldl afterUnbind record ↔
      t ∈ record ∨ ∃ a ∈ unbinds, a.failed = true ∧ a.ip = t := by
  induction unbinds generalizing record with
  | nil => simp
  | cons a unbinds ih =>
    have hstep : t ∈ afterUnbind record a ↔ t ∈ record ∨ (a.failed = true ∧ a.ip = t) := by
      unfold afterUnbind
      cases ha : a.failed with
      | false => simp
      | true =>
        by_cases hc : a.ip ∈ record
        · simp only [Bool.true_and, List.contains_iff_mem.mpr hc, Bool.not_true, Bool.false_eq_true,
            if_false, true_and]
          constructor
          · exact .inl
          · rintro (h | rfl)
            · exact h
            · exact hc
        · simp [hc, @eq_comm _ t a.ip]
    rw [List.foldl_cons, ih, hstep, or_assoc]
    simp

theorem mem_nextRecord : t ∈ nextRecord wanted binds unbinds ↔
    (t ∈ wanted ∧ ∀ a ∈ binds, a.ip = t → a.failed = false) ∨
      ∃ a ∈ unbinds, a.failed = true ∧ a.ip = t := by
  rw [nextRecord, mem_foldl_afterUnbind, mem_foldl_afterBind]

theorem mem_wantedOf {declared : List String} :
    t ∈ wantedOf declared ↔ t ∈ declared ∧ IpAddr.isIp t = true := by
  simp [wantedOf]

theorem mem_ownedOf {entries : Option (List String)} :
    t ∈ ownedOf entries ↔ (∃ es, entries = some es ∧ t ∈ es) ∧ IpAddr.isIp t = true := by
  cases entries <;> simp [ownedOf]

end Records

variable {N : Type}

/-- Attempts on texts in order, from one state of a site to another. Every text is an address. -/
inductive Tries (act : IpAddr → StateM N (Except Fault Unit)) :
    List String → N → List Attempt → N → Prop where
  | nil (n : N) : Tries act [] n [] n
  | cons {text : String} {ip : IpAddr} {texts : List String} {n n₁ n' : N}
      {answer : Except Fault Unit} {attempts : List Attempt}
      (hip : IpAddr.parse? text = some ip) (hact : (act ip).run n = (answer, n₁))
      (rest : Tries act texts n₁ attempts n') :
      Tries act (text :: texts) n (⟨text, answer⟩ :: attempts) n'

namespace Tries
variable {act : IpAddr → StateM N (Except Fault Unit)} {texts : List String} {n n' : N}
  {attempts : List Attempt}

theorem of_mapM {f : String → StateM N Attempt}
    (hf : ∀ text ip n, IpAddr.parse? text = some ip →
      (f text).run n = (⟨text, ((act ip).run n).1⟩, ((act ip).run n).2))
    (htexts : ∀ text ∈ texts, IpAddr.isIp text = true) (n : N) :
    Tries act texts n ((texts.mapM f).run n).1 ((texts.mapM f).run n).2 := by
  induction texts generalizing n with
  | nil => exact .nil n
  | cons text texts ih =>
    obtain ⟨htext, hrest⟩ := List.forall_mem_cons.mp htexts
    obtain ⟨ip, hip⟩ := Option.isSome_iff_exists.mp htext
    rw [run_mapM_cons, hf text ip n hip]
    exact .cons hip rfl (ih hrest _)

theorem map_ip (h : Tries act texts n attempts n') : attempts.map (·.ip) = texts := by
  induction h with
  | nil n => rfl
  | cons hip hact rest ih => rw [List.map_cons, ih]

theorem exists_attempt (h : Tries act texts n attempts n') {t : String} (ht : t ∈ texts) :
    ∃ a ∈ attempts, a.ip = t := by
  rw [← h.map_ip] at ht
  exact List.mem_map.mp ht

theorem ip_mem (h : Tries act texts n attempts n') {a : Attempt} (ha : a ∈ attempts) :
    a.ip ∈ texts := by
  rw [← h.map_ip]
  exact List.mem_map_of_mem ha

theorem eq_of_ip_eq (h : Tries act texts n attempts n') (hnodup : texts.Nodup) {a b : Attempt}
    (ha : a ∈ attempts) (hb : b ∈ attempts) (hip : a.ip = b.ip) : a = b := by
  induction h with
  | nil n => cases ha
  | cons htext hact rest ih =>
    obtain ⟨hfresh, hnodup⟩ := List.nodup_cons.mp hnodup
    rcases List.mem_cons.mp ha with rfl | ha
    · rcases List.mem_cons.mp hb with rfl | hb
      · rfl
      · have hb' := rest.ip_mem hb
        rw [← hip] at hb'
        exact absurd hb' hfresh
    · rcases List.mem_cons.mp hb with rfl | hb
      · have ha' := rest.ip_mem ha
        rw [hip] at ha'
        exact absurd ha' hfresh
      · exact ih hnodup ha hb

/-- What every single action keeps, the attempts keep. -/
theorem keeps {α : Type} (view : N → α)
    (hstep : ∀ ip n a n', (act ip).run n = (a, n') → view n' = view n)
    (h : Tries act texts n attempts n') : view n' = view n := by
  induction h with
  | nil n => rfl
  | cons hip hact rest ih => rw [ih, hstep _ _ _ _ hact]

end Tries

variable [Site N]

/-- What the answer of the ledger says is owned. -/
def recalled : Except Fault (Option (List String)) → Except Fault (List String)
  | .ok record => .ok (ownedOf record)
  | .error fault => if fault.isNotFound then .ok [] else .error fault

theorem recallOwned_run {mac : Mac} {n n' : N} {answer : Except Fault (Option (List String))}
    (h : (Site.readRecord mac.text).run n = (answer, n')) :
    (recallOwned mac).run n = (recalled answer, n') := by
  rw [recallOwned, run_bind h]
  cases answer <;> rfl

theorem recalled_eq_error {answer : Except Fault (Option (List String))} {fault : Fault}
    (h : recalled answer = .error fault) : answer = .error fault ∧ fault.isNotFound = false := by
  cases answer with
  | ok record => cases h
  | error other =>
    simp only [recalled] at h
    split at h
    · cases h
    · next hfault =>
      cases h
      exact ⟨rfl, Bool.eq_false_iff.mpr hfault⟩

/-- Binds an IP as a single host. -/
def bindHost (iface : LiveInterface) (ip : IpAddr) : StateM N (Except Fault Unit) :=
  Site.bind iface ip ip.hostPrefix

theorem bindText_run (iface : LiveInterface) {text : String} {ip : IpAddr} (n : N)
    (h : IpAddr.parse? text = some ip) : (bindText iface text).run n =
      (⟨text, ((bindHost iface ip).run n).1⟩, ((bindHost iface ip).run n).2) := by
  unfold bindText
  rw [h]
  rfl

theorem unbindText_run (iface : LiveInterface) {text : String} {ip : IpAddr} (n : N)
    (h : IpAddr.parse? text = some ip) : (unbindText iface text).run n =
      (⟨text, ((Site.unbind iface ip).run n).1⟩, ((Site.unbind iface ip).run n).2) := by
  unfold unbindText
  rw [h]
  rfl

/-- A live interface brought to its declaration: the answers that were got, the work that was
done on them, and the states of the site on the way. -/
structure Reconciliation (live : List LiveInterface) (d : DeclaredInterface) (n : N) (w : Work)
    (n' : N) where
  addresses : List LiveAddress
  answer : Except Fault (Option (List String))
  afterAddresses : N
  afterRead : N
  afterBinds : N
  afterUnbinds : N
  mac_eq : Mac.parse? d.mac = some w.mac
  iface_eq : matching? live w.mac = some w.iface
  bound_eq : w.bound = addresses.map LiveAddress.text
  recorded_eq : recalled answer = .ok w.recorded
  wanted_eq : w.wanted = wantedOf d.forwardedIps
  next_eq : w.next = nextRecord w.wanted w.binds w.unbinds
  addresses_run : (Site.addresses w.iface).run n = (.ok addresses, afterAddresses)
  read_run : (Site.readRecord w.mac.text).run afterAddresses = (answer, afterRead)
  binds_run : Tries (bindHost w.iface) (AddressDiff.between w.recorded w.wanted w.bound).toAdd
    afterRead w.binds afterBinds
  unbinds_run : Tries (Site.unbind w.iface)
    (AddressDiff.between w.recorded w.wanted w.bound).toRemove afterBinds w.unbinds afterUnbinds
  write_run : (Site.writeRecord w.mac.text w.next).run afterUnbinds = (w.saved, n')

/-- How a visit of a declared interface goes, by its five ends. -/
inductive Goes (live : List LiveInterface) (d : DeclaredInterface) (n : N) : Visit → N → Prop where
  | unparseable (hmac : Mac.parse? d.mac = none) : Goes live d n (.unparseable d.mac) n
  | unmatched {mac : Mac} (hmac : Mac.parse? d.mac = some mac)
      (hmatch : matching? live mac = none) : Goes live d n (.unmatched d.mac mac) n
  | unreadable {mac : Mac} {iface : LiveInterface} {fault : Fault} {n' : N}
      (hmac : Mac.parse? d.mac = some mac) (hmatch : matching? live mac = some iface)
      (haddresses : (Site.addresses iface).run n = (.error fault, n')) :
      Goes live d n (.unreadable mac iface fault) n'
  | unrecorded {mac : Mac} {iface : LiveInterface} {addresses : List LiveAddress} {fault : Fault}
      {n₁ n' : N} (hmac : Mac.parse? d.mac = some mac) (hmatch : matching? live mac = some iface)
      (haddresses : (Site.addresses iface).run n = (.ok addresses, n₁))
      (hread : (Site.readRecord mac.text).run n₁ = (.error fault, n'))
      (hfault : fault.isNotFound = false) : Goes live d n (.unrecorded mac iface fault) n'
  | reconciled {w : Work} {n' : N} (r : Reconciliation live d n w n') :
      Goes live d n (.reconciled w) n'

theorem isIp_of_mem_recalled {answer : Except Fault (Option (List String))}
    {recorded : List String} (h : recalled answer = .ok recorded) {t : String}
    (ht : t ∈ recorded) :
    IpAddr.isIp t = true ∧ ∃ entries, answer = .ok (some entries) ∧ t ∈ entries := by
  cases answer with
  | error fault =>
    simp only [recalled] at h
    split at h
    · cases h
      cases ht
    · cases h
  | ok record =>
    cases h
    obtain ⟨⟨entries, rfl, hmem⟩, hip⟩ := mem_ownedOf.mp ht
    exact ⟨hip, entries, rfl, hmem⟩

/-- Work that starts with owned addresses attempts nothing but addresses. -/
theorem exists_reconciliation {live : List LiveInterface} {d : DeclaredInterface} {mac : Mac}
    {iface : LiveInterface} {addresses : List LiveAddress}
    {answer : Except Fault (Option (List String))} {recorded : List String} {n n₁ n₂ n' : N}
    {w : Work} (hmac : Mac.parse? d.mac = some mac) (hmatch : matching? live mac = some iface)
    (haddresses : (Site.addresses iface).run n = (.ok addresses, n₁))
    (hread : (Site.readRecord mac.text).run n₁ = (answer, n₂))
    (hrecorded : recalled answer = .ok recorded)
    (hwork : (carryOut mac iface (addresses.map LiveAddress.text) recorded d.forwardedIps).run n₂ =
      (w, n')) : Nonempty (Reconciliation live d n w n') := by
  let diff := AddressDiff.between recorded (wantedOf d.forwardedIps)
    (addresses.map LiveAddress.text)
  have hadd : ∀ t ∈ diff.toAdd, IpAddr.isIp t = true := fun t ht =>
    (mem_wantedOf.mp (AddressDiff.mem_toAdd.mp ht).1).2
  have hremove : ∀ t ∈ diff.toRemove, IpAddr.isIp t = true := fun t ht =>
    (isIp_of_mem_recalled hrecorded (AddressDiff.mem_toRemove.mp ht).2.1).1
  have hbinds := Tries.of_mapM (fun text ip n => bindText_run iface n) hadd n₂
  have hunbinds := Tries.of_mapM (fun text ip n => unbindText_run iface n) hremove
    ((diff.toAdd.mapM (bindText iface)).run n₂).2
  obtain ⟨rfl, rfl⟩ := Prod.mk.inj hwork
  exact ⟨⟨addresses, answer, n₁, n₂, _, _, hmac, hmatch, rfl, hrecorded, rfl, rfl, haddresses,
    hread, hbinds, hunbinds, rfl⟩⟩

theorem goes {live : List LiveInterface} {d : DeclaredInterface} {n n' : N} {v : Visit}
    (h : (run live d).run n = (v, n')) : Goes live d n v n' := by
  unfold run at h
  cases hmac : Mac.parse? d.mac with
  | none =>
    rw [hmac] at h
    cases h
    exact .unparseable hmac
  | some mac =>
    rw [hmac] at h
    cases hmatch : matching? live mac with
    | none =>
      simp only [hmatch] at h
      cases h
      exact .unmatched hmac hmatch
    | some iface =>
      simp only [hmatch] at h
      cases haddresses : (Site.addresses iface).run n with
      | mk found n₁ =>
      rw [run_bind haddresses] at h
      cases found with
      | error fault =>
        cases h
        exact .unreadable hmac hmatch haddresses
      | ok addresses =>
        cases hread : (Site.readRecord mac.text).run n₁ with
        | mk answer n₂ =>
        simp only at h
        rw [run_bind (recallOwned_run hread)] at h
        cases hrecorded : recalled answer with
        | error fault =>
          rw [hrecorded] at h
          cases h
          obtain ⟨rfl, hfault⟩ := recalled_eq_error hrecorded
          exact .unrecorded hmac hmatch haddresses hread hfault
        | ok recorded =>
          simp only [hrecorded] at h
          cases hwork : (carryOut mac iface (addresses.map LiveAddress.text) recorded
              d.forwardedIps).run n₂ with
          | mk w n₃ =>
          rw [run_bind hwork] at h
          cases h
          obtain ⟨r⟩ := exists_reconciliation hmac hmatch haddresses hread hrecorded hwork
          exact .reconciled r

end Visit
end ForwardedIp
