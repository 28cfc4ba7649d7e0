import ForwardedIp.Proofs.PrintedForms
import ForwardedIp.Proofs.VisitRuns
/-!
# What a visit changes

A visit changes at most one record, and at most what is bound at one index; both only by the end
that reconciles. The record it writes comes from the old one and from what is wanted, and an
address is bound afterwards if it was before or got bound, and did not get unbound.
-/
namespace ForwardedIp

/-- Whether a request is to change something. -/
def Call.changes : Call → Bool
  | .bind _ _ _ _ | .unbind _ _ _ | .writeRecord _ _ _ => true
  | _ => false

/-- Whether a request was to bind an IP at an index, and did. -/
def Call.binds (index : Nat) (ip : IpAddr) : Call → Bool
  | .bind iface other _ (.ok ()) => iface.index == index && other == ip
  | _ => false

def Call.isBind : Call → Bool
  | .bind _ _ _ _ => true
  | _ => false

def Call.isUnbind : Call → Bool
  | .unbind _ _ _ => true
  | _ => false

/-- Whether the ledger refused a request. -/
def Call.isRefused : Call → Bool
  | .readRecord _ (.error _) | .writeRecord _ _ (.error _) => true
  | _ => false

namespace Attempt
variable {a : Attempt} {attempts : List Attempt} {x : LiveAddress}

/-- What is bound by an attempt to bind an address as a single host. -/
def bound? (a : Attempt) : Option LiveAddress :=
  if a.failed then none else (IpAddr.parse? a.ip).map LiveAddress.host

/-- Whether attempts to unbind addresses leave one bound. -/
def spare (attempts : List Attempt) (x : LiveAddress) : Bool :=
  attempts.all fun a => a.failed || IpAddr.parse? a.ip != some x.ip

theorem bound?_ok {text : String} {ip : IpAddr} (h : IpAddr.parse? text = some ip) :
    bound? ⟨text, .ok ()⟩ = some (.host ip) := by
  show (IpAddr.parse? text).map LiveAddress.host = _
  rw [h]
  rfl

theorem spare_cons_ok {text : String} {ip : IpAddr} (h : IpAddr.parse? text = some ip) :
    spare (⟨text, .ok ()⟩ :: attempts) x = (decide (x.ip ≠ ip) && spare attempts x) := by
  show (IpAddr.parse? text != some x.ip && spare attempts x) = _
  rw [h]
  by_cases hx : x.ip = ip <;> simp [hx, @eq_comm _ ip]

theorem bound?_eq_some : a.bound? = some x ↔ ∃ ip, a.Did ip ∧ x = .host ip := by
  unfold bound? Did
  rw [← failed_eq_false]
  cases a.failed <;> simp [@eq_comm _ x]

theorem spare_eq_true : spare attempts x = true ↔ ∀ a ∈ attempts, ¬ a.Did x.ip := by
  simp only [spare, List.all_eq_true, Did, ← failed_eq_false]
  refine forall₂_congr fun a _ => ?_
  cases a.failed <;> simp

end Attempt

namespace Visit

def work? : Visit → Option Work
  | .reconciled w => some w
  | _ => none

variable {N : Type} {live : List LiveInterface} {d : DeclaredInterface} {v : Visit} {w : Work}
  {key t : String} {a : Attempt}

theorem mem_of_matching? {mac : Mac} {iface : LiveInterface} (h : matching? live mac = some iface) :
    iface ∈ live ∧ iface.mac = some mac :=
  ⟨List.mem_of_find?_eq_some h, by simpa using List.find?_some h⟩

namespace Reconciliation
variable [Site N] {n n' : N}

theorem iface_mem (r : Reconciliation live d n w n') : w.iface ∈ live :=
  (mem_of_matching? r.iface_eq).1

theorem iface_mac (r : Reconciliation live d n w n') : w.iface.mac = some w.mac :=
  (mem_of_matching? r.iface_eq).2

theorem mem_wanted (r : Reconciliation live d n w n') :
    t ∈ w.wanted ↔ t ∈ d.forwardedIps ∧ IpAddr.isIp t = true := by
  rw [r.wanted_eq, mem_wantedOf]

theorem wanted_ip (r : Reconciliation live d n w n') (ht : t ∈ w.wanted) :
    ∃ ip, IpAddr.parse? t = some ip :=
  Option.isSome_iff_exists.mp (r.mem_wanted.mp ht).2

theorem recorded_ip (r : Reconciliation live d n w n') (ht : t ∈ w.recorded) :
    ∃ ip, IpAddr.parse? t = some ip :=
  Option.isSome_iff_exists.mp (isIp_of_mem_recalled r.recorded_eq ht).1

theorem mem_next (r : Reconciliation live d n w n') : t ∈ w.next ↔
    (t ∈ w.wanted ∧ ∀ a ∈ w.binds, a.ip = t → a.failed = false) ∨
      ∃ a ∈ w.unbinds, a.failed = true ∧ a.ip = t := by
  rw [r.next_eq, mem_nextRecord]

theorem exists_bind (r : Reconciliation live d n w n') (hw : t ∈ w.wanted) (hb : t ∉ w.bound) :
    ∃ a ∈ w.binds, a.ip = t :=
  r.binds_run.exists_attempt (AddressDiff.mem_toAdd.mpr ⟨hw, hb⟩)

theorem bind_mem (r : Reconciliation live d n w n') (ha : a ∈ w.binds) :
    a.ip ∈ w.wanted ∧ a.ip ∉ w.bound :=
  AddressDiff.mem_toAdd.mp (r.binds_run.ip_mem ha)

theorem exists_unbind (r : Reconciliation live d n w n') (hb : t ∈ w.bound) (hr : t ∈ w.recorded)
    (hw : t ∉ w.wanted) : ∃ a ∈ w.unbinds, a.ip = t :=
  r.unbinds_run.exists_attempt (AddressDiff.mem_toRemove.mpr ⟨hb, hr, hw⟩)

theorem unbind_mem (r : Reconciliation live d n w n') (ha : a ∈ w.unbinds) :
    a.ip ∈ w.bound ∧ a.ip ∈ w.recorded ∧ a.ip ∉ w.wanted :=
  AddressDiff.mem_toRemove.mp (r.unbinds_run.ip_mem ha)

theorem bind_printed (r : Reconciliation live d n w n') (hprinted : Printed d.forwardedIps)
    (ha : a ∈ w.binds) {ip : IpAddr} (hip : IpAddr.parse? a.ip = some ip) : a.ip = ip.text :=
  hprinted a.ip (r.mem_wanted.mp (r.bind_mem ha).1).1 ip hip

/-- What is to be unbound was read as bound, so it is in printed form. -/
theorem printed_toRemove (r : Reconciliation live d n w n') :
    Printed (AddressDiff.between w.recorded w.wanted w.bound).toRemove := by
  intro t ht ip hip
  obtain ⟨hbound, -, -⟩ := AddressDiff.mem_toRemove.mp ht
  rw [r.bound_eq] at hbound
  obtain ⟨x, -, rfl⟩ := List.mem_map.mp hbound
  exact LiveAddress.eq_text_of_parse? hip

theorem bind_unique (r : Reconciliation live d n w n') {b : Attempt} (ha : a ∈ w.binds)
    (hb : b ∈ w.binds) (hip : a.ip = b.ip) : a = b :=
  r.binds_run.eq_of_ip_eq (nodup_eraseDups _) ha hb hip

theorem unbind_unique (r : Reconciliation live d n w n') {b : Attempt} (ha : a ∈ w.unbinds)
    (hb : b ∈ w.unbinds) (hip : a.ip = b.ip) : a = b :=
  r.unbinds_run.eq_of_ip_eq (nodup_eraseDups _) ha hb hip

theorem mem_wanted_or_recorded (r : Reconciliation live d n w n') (ht : t ∈ w.next) :
    t ∈ w.wanted ∨ t ∈ w.recorded := by
  rcases r.mem_next.mp ht with ⟨hw, -⟩ | ⟨a, ha, -, rfl⟩
  · exact .inl hw
  · exact .inr (r.unbind_mem ha).2.1

theorem isIp_of_mem_next (r : Reconciliation live d n w n') (ht : t ∈ w.next) :
    IpAddr.isIp t = true := by
  rcases r.mem_wanted_or_recorded ht with hwanted | hrecorded
  · exact (r.mem_wanted.mp hwanted).2
  · exact (isIp_of_mem_recalled r.recorded_eq hrecorded).1

end Reconciliation

section Records
variable [Site N] [RecordedSite N] {n n' : N}
open RecordedSite

namespace Reconciliation

theorem record_afterAddresses (r : Reconciliation live d n w n') :
    record r.afterAddresses = record n := addresses_record r.addresses_run

theorem record_afterUnbinds (r : Reconciliation live d n w n') :
    record r.afterUnbinds = record n := by
  have hread : record r.afterRead = record n := by
    rw [read_record r.read_run, r.record_afterAddresses]
  have hbinds : record r.afterBinds = record r.afterRead :=
    r.binds_run.keeps record fun ip n a n' h => bind_record h
  have hunbinds : record r.afterUnbinds = record r.afterBinds :=
    r.unbinds_run.keeps record fun ip n a n' h => unbind_record h
  rw [hunbinds, hbinds, hread]

theorem mem_record (r : Reconciliation live d n w n') (ht : t ∈ w.recorded) :
    ∃ entries, r.answer = .ok (some entries) ∧ record n w.mac.text = some entries ∧
      t ∈ entries := by
  obtain ⟨-, entries, hanswer, hmem⟩ := isIp_of_mem_recalled r.recorded_eq ht
  have hread := r.read_run
  rw [hanswer] at hread
  refine ⟨entries, hanswer, ?_, hmem⟩
  rw [← r.record_afterAddresses]
  exact (read_ok hread).symm

theorem recorded_of_ok (r : Reconciliation live d n w n') {entries : Option (List String)}
    (hanswer : r.answer = .ok entries) : w.recorded = ownedOf (record n w.mac.text) := by
  have hread := r.read_run
  have hrecorded := r.recorded_eq
  rw [hanswer] at hread hrecorded
  rw [← r.record_afterAddresses, ← read_ok hread]
  exact (Except.ok.inj hrecorded).symm

theorem record_of_ne (r : Reconciliation live d n w n') (hne : key ≠ w.mac.text) :
    record n' key = record n key := by
  rw [write_other r.write_run hne, r.record_afterUnbinds]

theorem record_of_saved (r : Reconciliation live d n w n') (hsaved : w.saved = .ok ()) :
    record n' w.mac.text = some w.next := by
  have hwrite := r.write_run
  rw [hsaved] at hwrite
  exact write_ok hwrite

/-- A write that fails leaves the old record or the new one. -/
theorem record_self (r : Reconciliation live d n w n') :
    record n' w.mac.text = some w.next ∨ record n' w.mac.text = record n w.mac.text := by
  cases hsaved : w.saved with
  | ok u => exact .inl (r.record_of_saved hsaved)
  | error fault =>
    have hwrite := r.write_run
    rw [hsaved] at hwrite
    rw [← r.record_afterUnbinds]
    exact (write_error hwrite).symm

end Reconciliation

/-- A record that is not the old one is the one that the visit was to write. -/
theorem Goes.record_eq (g : Goes live d n v n') (key : String) : record n' key = record n key ∨
    ∃ w, ∃ _ : Reconciliation live d n w n',
      v = .reconciled w ∧ key = w.mac.text ∧ record n' key = some w.next := by
  cases g with
  | unparseable hmac => exact .inl rfl
  | unmatched hmac hmatch => exact .inl rfl
  | unreadable hmac hmatch haddresses => exact .inl (by rw [addresses_record haddresses])
  | unrecorded hmac hmatch haddresses hread hfault =>
    exact .inl (by rw [read_record hread, addresses_record haddresses])
  | @reconciled w _ r =>
    by_cases hkey : key = w.mac.text
    · rcases r.record_self with hnew | hold
      · exact .inr ⟨w, r, rfl, hkey, hkey ▸ hnew⟩
      · exact .inl (hkey ▸ hold)
    · exact .inl (r.record_of_ne hkey)

/-- Whatever fails, a visit puts nothing into a record but what is wanted for its address. -/
theorem Goes.mem_record (g : Goes live d n v n') (ht : t ∈ (record n' key).getD []) :
    t ∈ (record n key).getD [] ∨
      ∃ mac, Mac.parse? d.mac = some mac ∧ key = mac.text ∧ t ∈ wantedOf d.forwardedIps := by
  rcases g.record_eq key with hold | ⟨w, r, -, hkey, hnew⟩
  · rw [hold] at ht
    exact .inl ht
  · rw [hnew] at ht
    rcases r.mem_wanted_or_recorded ht with hwanted | hrecorded
    · exact .inr ⟨w.mac, r.mac_eq, hkey, r.wanted_eq ▸ hwanted⟩
    · obtain ⟨entries, -, hentries, hmem⟩ := r.mem_record hrecorded
      rw [hkey, hentries]
      exact .inl hmem

end Records

section Host
variable [Site N] [MemorySite N] {n n' : N} {index : Nat} {x : LiveAddress}
open MemorySite

theorem Tries.bound_binds {iface : LiveInterface} {texts : List String}
    {attempts : List Attempt} (h : Tries (bindHost iface) texts n attempts n') :
    bound n' iface.index = bound n iface.index ++ attempts.filterMap Attempt.bound? := by
  induction h with
  | nil n => simp
  | @cons text ip texts n n₁ n' answer attempts hip hact rest ih =>
    rw [ih]
    cases answer with
    | ok u =>
      rw [bind_ok hact, List.filterMap_cons_some (Attempt.bound?_ok hip), List.append_assoc]
      rfl
    | error fault =>
      rw [bind_error hact, List.filterMap_cons_none rfl]

theorem Tries.bound_unbinds {iface : LiveInterface} {texts : List String}
    {attempts : List Attempt} (h : Tries (Site.unbind iface) texts n attempts n') :
    bound n' iface.index = (bound n iface.index).filter (Attempt.spare attempts) := by
  induction h with
  | nil n => exact (List.filter_eq_self.mpr fun _ _ => rfl).symm
  | @cons text ip texts n n₁ n' answer attempts hip hact rest ih =>
    rw [ih]
    cases answer with
    | ok u =>
      rw [unbind_ok hact, List.filter_filter]
      refine List.filter_congr fun x _ => ?_
      rw [Attempt.spare_cons_ok hip, Bool.and_comm]
    | error fault =>
      rw [unbind_error hact]
      rfl

namespace Reconciliation

theorem host_afterRead (r : Reconciliation live d n w n') :
    listed r.afterRead = listed n ∧ bound r.afterRead = bound n := by
  obtain ⟨hl, hb⟩ := read_host r.read_run
  obtain ⟨hl', hb'⟩ := addresses_host r.addresses_run
  exact ⟨hl.trans hl', hb.trans hb'⟩

/-- What is bound afterwards, in order: what was and what got bound, without what got unbound. -/
theorem bound_after (r : Reconciliation live d n w n') : bound n' w.iface.index =
    (bound n w.iface.index ++ w.binds.filterMap Attempt.bound?).filter
      (Attempt.spare w.unbinds) := by
  rw [(write_host r.write_run).2, r.unbinds_run.bound_unbinds, r.binds_run.bound_binds,
    r.host_afterRead.2]

/-- An address is bound afterwards if it was before or got bound, and did not get unbound. -/
theorem mem_bound (r : Reconciliation live d n w n') : x ∈ bound n' w.iface.index ↔
    (x ∈ bound n w.iface.index ∨ ∃ a ∈ w.binds, ∃ ip, a.Did ip ∧ x = .host ip) ∧
      ∀ a ∈ w.unbinds, ¬ a.Did x.ip := by
  rw [r.bound_after, List.mem_filter, List.mem_append, Attempt.spare_eq_true]
  simp only [List.mem_filterMap, Attempt.bound?_eq_some]

theorem bound_of_ne (r : Reconciliation live d n w n') (hne : index ≠ w.iface.index) :
    bound n' index = bound n index := by
  have hbinds : bound r.afterBinds index = bound r.afterRead index :=
    r.binds_run.keeps (bound · index) fun ip n a n' h => bind_other h hne
  have hunbinds : bound r.afterUnbinds index = bound r.afterBinds index :=
    r.unbinds_run.keeps (bound · index) fun ip n a n' h => unbind_other h hne
  rw [(write_host r.write_run).2, hunbinds, hbinds, r.host_afterRead.2]

theorem mem_bound_text (r : Reconciliation live d n w n') :
    t ∈ w.bound ↔ ∃ x ∈ bound n w.iface.index, x.text = t := by
  rw [r.bound_eq, addresses_ok r.addresses_run, List.mem_map]

/-- An address is bound with the host prefix exactly if its bare text is read. -/
theorem text_mem_bound (r : Reconciliation live d n w n') {ip : IpAddr} :
    ip.text ∈ w.bound ↔ .host ip ∈ bound n w.iface.index := by
  rw [r.mem_bound_text]
  constructor
  · rintro ⟨x, hx, htext⟩
    rwa [LiveAddress.text_eq_text.mp htext] at hx
  · exact fun h => ⟨.host ip, h, LiveAddress.text_host ip⟩

end Reconciliation

/-- A visit that does not end in a reconciliation leaves the host and the records alone. -/
theorem Goes.unchanged_or_reconciled (g : Goes live d n v n') :
    (RecordedSite.record n' = RecordedSite.record n ∧ bound n' = bound n) ∨
      ∃ w, ∃ _ : Reconciliation live d n w n', v = .reconciled w := by
  cases g with
  | unparseable hmac => exact .inl ⟨rfl, rfl⟩
  | unmatched hmac hmatch => exact .inl ⟨rfl, rfl⟩
  | unreadable hmac hmatch haddresses =>
    exact .inl ⟨RecordedSite.addresses_record haddresses, (addresses_host haddresses).2⟩
  | unrecorded hmac hmatch haddresses hread hfault =>
    refine .inl ⟨?_, ?_⟩
    · rw [RecordedSite.read_record hread, RecordedSite.addresses_record haddresses]
    · rw [(read_host hread).2, (addresses_host haddresses).2]
  | @reconciled w _ r => exact .inr ⟨w, r, rfl⟩

theorem Goes.listed_eq (g : Goes live d n v n') : listed n' = listed n := by
  cases g with
  | unparseable hmac => rfl
  | unmatched hmac hmatch => rfl
  | unreadable hmac hmatch haddresses => exact (addresses_host haddresses).1
  | unrecorded hmac hmatch haddresses hread hfault =>
    exact (read_host hread).1.trans (addresses_host haddresses).1
  | reconciled r =>
    have hbinds : listed r.afterBinds = listed r.afterRead :=
      r.binds_run.keeps listed fun ip n a n' h => bind_listed h
    have hunbinds : listed r.afterUnbinds = listed r.afterBinds :=
      r.unbinds_run.keeps listed fun ip n a n' h => unbind_listed h
    rw [(write_host r.write_run).1, hunbinds, hbinds, r.host_afterRead.1]

end Host

section Calls
variable {o o' : Observed N}

theorem Tries.calls_eq {act : IpAddr → StateM (Observed N) (Except Fault Unit)}
    {texts : List String} {attempts : List Attempt} (call : IpAddr → Except Fault Unit → Call)
    (hact : ∀ {ip o a o'}, (act ip).run o = (a, o') → o'.calls = o.calls ++ [call ip a])
    (h : Tries act texts o attempts o') :
    o'.calls = o.calls ++ attempts.filterMap (Attempt.call? call) := by
  induction h with
  | nil o => simp
  | @cons text ip texts n n₁ n' answer attempts hip hrun rest ih =>
    rw [ih, hact hrun, List.filterMap_cons_some (Attempt.call?_of_parse? hip), List.append_assoc,
      List.singleton_append]

variable [Site N]

/-- The calls of a reconciliation, in order. -/
def Reconciliation.calls {n n' : N} (r : Reconciliation live d n w n') : List Call :=
  [.addresses w.iface (.ok r.addresses), .readRecord w.mac.text r.answer] ++
    w.binds.filterMap (Attempt.call? fun ip => .bind w.iface ip ip.hostPrefix) ++
    w.unbinds.filterMap (Attempt.call? (.unbind w.iface)) ++
    [.writeRecord w.mac.text w.next w.saved]

theorem Reconciliation.calls_eq (r : Reconciliation live d o w o') :
    o'.calls = o.calls ++ r.calls := by
  have haddresses := (Observed.noting_run r.addresses_run).2
  have hread := (Observed.noting_run r.read_run).2
  have hbinds := r.binds_run.calls_eq (fun ip => .bind w.iface ip ip.hostPrefix)
    fun h => (Observed.noting_run h).2
  have hunbinds := r.unbinds_run.calls_eq (.unbind w.iface) fun h => (Observed.noting_run h).2
  have hwrite := (Observed.noting_run r.write_run).2
  rw [hwrite, hunbinds, hbinds, hread, haddresses, calls]
  simp only [List.append_assoc, List.cons_append, List.nil_append]

theorem Reconciliation.read_mem_calls {n n' : N} (r : Reconciliation live d n w n') :
    .readRecord w.mac.text r.answer ∈ r.calls := by
  simp [calls]

theorem Reconciliation.write_mem_calls {n n' : N} (r : Reconciliation live d n w n') :
    .writeRecord w.mac.text w.next w.saved ∈ r.calls := by
  simp [calls]

theorem mem_filterMap_call? {call : IpAddr → Except Fault Unit → Call} {attempts : List Attempt}
    {c : Call} : c ∈ attempts.filterMap (Attempt.call? call) ↔
      ∃ a ∈ attempts, ∃ ip, IpAddr.parse? a.ip = some ip ∧ call ip a.answer = c := by
  simp [List.mem_filterMap, Attempt.call?]

theorem Reconciliation.bind_mem_calls {n n' : N} (r : Reconciliation live d n w n')
    (ha : a ∈ w.binds) {ip : IpAddr} (hip : IpAddr.parse? a.ip = some ip) :
    .bind w.iface ip ip.hostPrefix a.answer ∈ r.calls := by
  simp only [calls, List.mem_append, mem_filterMap_call?]
  exact .inl (.inl (.inr ⟨a, ha, ip, hip, rfl⟩))

theorem Reconciliation.unbind_mem_calls {n n' : N} (r : Reconciliation live d n w n')
    (ha : a ∈ w.unbinds) {ip : IpAddr} (hip : IpAddr.parse? a.ip = some ip) :
    .unbind w.iface ip a.answer ∈ r.calls := by
  simp only [calls, List.mem_append, mem_filterMap_call?]
  exact .inl (.inr ⟨a, ha, ip, hip, rfl⟩)

theorem Reconciliation.bind_of_call {n n' : N} (r : Reconciliation live d n w n')
    {iface : LiveInterface} {ip : IpAddr} {k : Nat} {answer : Except Fault Unit}
    (h : .bind iface ip k answer ∈ r.calls) : iface = w.iface ∧ k = ip.hostPrefix ∧
      ∃ a ∈ w.binds, IpAddr.parse? a.ip = some ip ∧ a.answer = answer := by
  simp only [calls, List.mem_append, mem_filterMap_call?, List.mem_cons, List.not_mem_nil,
    reduceCtorEq, or_false, false_or, and_false, exists_false] at h
  obtain ⟨a, ha, ip', hip, heq⟩ := h
  injection heq with hiface hip' hk hanswer
  subst hip'
  exact ⟨hiface.symm, hk.symm, a, ha, hip, hanswer⟩

theorem Reconciliation.unbind_of_call {n n' : N} (r : Reconciliation live d n w n')
    {iface : LiveInterface} {ip : IpAddr} {answer : Except Fault Unit}
    (h : .unbind iface ip answer ∈ r.calls) : iface = w.iface ∧
      ∃ a ∈ w.unbinds, IpAddr.parse? a.ip = some ip ∧ a.answer = answer := by
  simp only [calls, List.mem_append, mem_filterMap_call?, List.mem_cons, List.not_mem_nil,
    reduceCtorEq, or_false, false_or, and_false, exists_false] at h
  obtain ⟨a, ha, ip', hip, heq⟩ := h
  injection heq with hiface hip' hanswer
  subst hip'
  exact ⟨hiface.symm, a, ha, hip, hanswer⟩

/-- A visit only adds to the calls, and one that asks for a change is a reconciliation. -/
theorem Goes.calls_eq (g : Goes live d o v o') : ∃ calls, o'.calls = o.calls ++ calls ∧
    ∀ c ∈ calls, c.changes = true →
      ∃ w, ∃ _ : Reconciliation live d o w o', v = .reconciled w := by
  cases g with
  | unparseable hmac => exact ⟨[], by simp, by simp⟩
  | unmatched hmac hmatch => exact ⟨[], by simp, by simp⟩
  | unreadable hmac hmatch haddresses =>
    exact ⟨_, (Observed.noting_run haddresses).2, by simp [Call.changes]⟩
  | unrecorded hmac hmatch haddresses hread hfault =>
    have hcalls := (Observed.noting_run hread).2
    rw [(Observed.noting_run haddresses).2, List.append_assoc] at hcalls
    exact ⟨_, hcalls, by simp [Call.changes]⟩
  | @reconciled w _ r => exact ⟨r.calls, r.calls_eq, fun c hc hchanges => ⟨w, r, rfl⟩⟩

end Calls
end Visit
end ForwardedIp
