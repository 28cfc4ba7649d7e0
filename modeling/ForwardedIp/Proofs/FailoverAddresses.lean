import ForwardedIp.Proofs.CleanVisits
import ForwardedIp.Proofs.Runs
/-!
# Addresses of failover clusters are left alone

The list of failover addresses excludes declared addresses by their texts. So a pass binds only
what is declared under a text that is not listed, and puts only such texts into a record, next to
what it could not remove. Without a list the flag keeps a pass from binding at all. A listed
address that is declared in another spelling is bound like any other.
-/
namespace ForwardedIp

theorem Exclusion.mem_keep {s : Settings} {ips : List String} {t : String} :
    t ∈ keep s ips ↔ t ∈ ips ∧ t ∉ s.failoverAddresses ∧
      (s.failoverAddresses = [] → s.failoverEnabled = false) := by
  unfold keep ofSettings
  cases hlist : s.failoverAddresses with
  | nil => cases s.failoverEnabled <;> simp
  | cons first rest => simp

/-- A snapshot declares a text for a hardware address. -/
def Snapshot.Declares (s : Snapshot) (mac : Mac) (t : String) : Prop :=
  ∃ d ∈ s.interfaces, Mac.parse? d.mac = some mac ∧ t ∈ d.forwardedIps

theorem Engine.declares_of_declaration {e : Engine} {s : Snapshot} {d : DeclaredInterface}
    {mac : Mac} {t : String} (hd : d ∈ e.declaration s) (hmac : Mac.parse? d.mac = some mac)
    (ht : t ∈ d.forwardedIps) : s.Declares mac t ∧ t ∉ (e.settings s).failoverAddresses ∧
      ((e.settings s).failoverAddresses = [] → (e.settings s).failoverEnabled = false) := by
  obtain ⟨d', hd', rfl⟩ := List.mem_map.mp hd
  obtain ⟨hdeclared, hunlisted⟩ := Exclusion.mem_keep.mp ht
  exact ⟨⟨d', hd', hmac, hdeclared⟩, hunlisted⟩

namespace Visit.Reconciliation
variable {N : Type} [Site N] {live : List LiveInterface} {d : DeclaredInterface} {n n' : N}
  {w : Work}

theorem write_of_call (r : Reconciliation live d n w n') {key : String} {ips : List String}
    {answer : Except Fault Unit} (h : .writeRecord key ips answer ∈ r.calls) :
    key = w.mac.text ∧ ips = w.next ∧ answer = w.saved := by
  simp only [calls, List.mem_append, mem_filterMap_call?, List.mem_cons, List.not_mem_nil,
    reduceCtorEq, or_false, false_or, and_false, exists_false] at h
  injection h with hkey hips hanswer
  exact ⟨hkey, hips, hanswer⟩

/-- An entry of the new record is wanted, or is the printed form of what could not be unbound. -/
theorem wanted_or_kept (r : Reconciliation live d n w n') {t : String} (ht : t ∈ w.next) :
    t ∈ w.wanted ∨ ∃ ip fault, t = ip.text ∧ .unbind w.iface ip (.error fault) ∈ r.calls := by
  rcases r.mem_next.mp ht with ⟨hwanted, -⟩ | ⟨a, ha, hfailed, rfl⟩
  · exact .inl hwanted
  · obtain ⟨ip, hip⟩ := r.recorded_ip (r.unbind_mem ha).2.1
    have hcall := r.unbind_mem_calls ha hip
    cases hanswer : a.answer with
    | ok u =>
      rw [Attempt.failed_eq_false.mpr hanswer] at hfailed
      cases hfailed
    | error fault =>
      rw [hanswer] at hcall
      exact .inr ⟨ip, fault, r.printed_toRemove a.ip (r.unbinds_run.ip_mem ha) ip hip, hcall⟩

end Visit.Reconciliation

namespace Turn
variable {N : Type} [Site N] {t : Turn N} {e : Engine} {s : Snapshot}

/-- A change that a pass asks for belongs to the reconciliation of a declared interface, all of
whose calls are made in the pass. -/
theorem reconciliation_of_call (hpass : t.pass? = some (e, s)) {c : Call} (hc : c ∈ t.calls)
    (hchanges : c.changes = true) : ∃ live d n w n',
      ∃ r : Visit.Reconciliation (N := Observed N) live d n w n',
        d ∈ e.declaration s ∧ c ∈ r.calls ∧ ∀ c' ∈ r.calls, c' ∈ t.calls := by
  obtain ⟨p, hp, hcp⟩ := t.exists_passage hc hchanges
  obtain ⟨w, ⟨r⟩⟩ := (t.goes_of_mem hp).reconciliation hcp hchanges
  have hcalls : p.calls = r.calls := Passage.calls_of_reconciliation r
  refine ⟨_, _, _, w, _, r, ?_, hcalls ▸ hcp, fun c' hc' => ?_⟩
  · obtain ⟨start, happening⟩ := t
    cases happening with
    | outside change => cases hpass
    | command c =>
      obtain ⟨e', s', hpass', hdeclared, -⟩ := Engine.mem_passages hp
      obtain ⟨rfl, rfl⟩ := Prod.mk.inj (Option.some.inj (hpass.symm.trans hpass'))
      exact hdeclared
  · exact t.chain_quiet.mem_calls hp (hcalls ▸ hc')

/-- In a pass every IP that is bound is declared for its interface under a text that is not among
the failover addresses, and so is every entry of a record that is written, unless it could not be
unbound. Nothing is bound if there are no such addresses but the flag is set. -/
theorem failover_addresses_left (hpass : t.pass? = some (e, s)) :
    (∀ iface ip prefixLen answer, .bind iface ip prefixLen answer ∈ t.calls →
      ∃ mac text, iface.mac = some mac ∧ IpAddr.parse? text = some ip ∧ s.Declares mac text ∧
        text ∉ (e.settings s).failoverAddresses) ∧
    (∀ key ips answer, .writeRecord key ips answer ∈ t.calls →
      ∃ mac, key = mac.text ∧ ∀ text ∈ ips,
        (s.Declares mac text ∧ text ∉ (e.settings s).failoverAddresses) ∨
          ∃ iface ip fault, iface.mac = some mac ∧ text = ip.text ∧
            .unbind iface ip (.error fault) ∈ t.calls) ∧
    ((e.settings s).failoverAddresses = [] → (e.settings s).failoverEnabled = true →
      ∀ iface ip prefixLen answer, .bind iface ip prefixLen answer ∉ t.calls) := by
  have hbind : ∀ iface ip prefixLen answer, .bind iface ip prefixLen answer ∈ t.calls →
      ∃ mac text, iface.mac = some mac ∧ IpAddr.parse? text = some ip ∧ s.Declares mac text ∧
        text ∉ (e.settings s).failoverAddresses ∧
          ((e.settings s).failoverAddresses = [] → (e.settings s).failoverEnabled = false) := by
    intro iface ip prefixLen answer hc
    obtain ⟨live, d, n, w, n', r, hd, hcall, -⟩ := reconciliation_of_call hpass hc rfl
    obtain ⟨rfl, -, a, ha, hip, -⟩ := r.bind_of_call hcall
    have hdeclared := (r.mem_wanted.mp (r.bind_mem ha).1).1
    exact ⟨w.mac, a.ip, r.iface_mac, hip, Engine.declares_of_declaration hd r.mac_eq hdeclared⟩
  refine ⟨?_, ?_, ?_⟩
  · intro iface ip prefixLen answer hc
    obtain ⟨mac, text, hmac, hip, hdeclares, hunlisted, -⟩ := hbind iface ip prefixLen answer hc
    exact ⟨mac, text, hmac, hip, hdeclares, hunlisted⟩
  · intro key ips answer hc
    obtain ⟨live, d, n, w, n', r, hd, hcall, hwithin⟩ := reconciliation_of_call hpass hc rfl
    obtain ⟨rfl, rfl, -⟩ := r.write_of_call hcall
    refine ⟨w.mac, rfl, fun text htext => ?_⟩
    rcases r.wanted_or_kept htext with hwanted | ⟨ip, fault, hprinted, hunbind⟩
    · obtain ⟨hdeclares, hunlisted, -⟩ :=
        Engine.declares_of_declaration hd r.mac_eq (r.mem_wanted.mp hwanted).1
      exact .inl ⟨hdeclares, hunlisted⟩
    · exact .inr ⟨w.iface, ip, fault, r.iface_mac, hprinted, hwithin _ hunbind⟩
  · intro hlist hflag iface ip prefixLen answer hc
    obtain ⟨mac, text, -, -, -, -, hoff⟩ := hbind iface ip prefixLen answer hc
    rw [hoff hlist] at hflag
    cases hflag

/-- The address 2001:db8::5. -/
def clusterIp : IpAddr := .v6 ⟨[0x2001, 0xdb8, 0, 0, 0, 0, 0, 5], rfl⟩

/-- A failover address is listed in small letters and declared in capital ones. -/
def respelling : Snapshot where
  interfaces := [⟨"02:00:00:00:00:0a", ["2001:DB8::5"]⟩]
  instanceAttributes := { failoverAddresses := some "2001:db8::5" }

/-- A pass of a fresh reconciler with that snapshot. -/
def respelled : Turn (Machine MemoryHost MemoryLedger) where
  start := ⟨Engine.fresh {}, { site := .single "02:00:00:00:00:0a" [] [] }⟩
  happening := .command (.apply respelling)

theorem respelled_binds :
    ∃ iface prefixLen answer, .bind iface clusterIp prefixLen answer ∈ respelled.calls := by
  have hany : respelled.calls.any (Call.binds 2 clusterIp) = true := by decide +kernel
  obtain ⟨c, hc, hbind⟩ := List.any_eq_true.mp hany
  cases c with
  | bind iface ip prefixLen answer =>
    cases answer with
    | ok u =>
      obtain ⟨-, hip⟩ := Bool.and_eq_true_iff.mp hbind
      obtain rfl := eq_of_beq hip
      exact ⟨iface, prefixLen, _, hc⟩
    | error fault => cases hbind
  | _ => cases hbind

/-- A listed address is bound if it is declared in another spelling. -/
theorem respelled_bound : ¬ ∀ (t : Turn (Machine MemoryHost MemoryLedger)) (e : Engine)
    (s : Snapshot), t.pass? = some (e, s) →
      ∀ iface ip prefixLen answer, .bind iface ip prefixLen answer ∈ t.calls →
        ∀ text ∈ (e.settings s).failoverAddresses, IpAddr.parse? text ≠ some ip := by
  intro hall
  obtain ⟨iface, prefixLen, answer, hcall⟩ := respelled_binds
  exact hall respelled _ _ rfl iface clusterIp prefixLen answer hcall "2001:db8::5"
    (by decide +kernel) (by decide +kernel)

theorem respelled_declared : ∃ mac text, IpAddr.parse? text = some clusterIp ∧
    respelling.Declares mac text ∧ text ≠ "2001:db8::5" := by
  obtain ⟨iface, prefixLen, answer, hcall⟩ := respelled_binds
  obtain ⟨hbind, -, -⟩ := failover_addresses_left (t := respelled) rfl
  obtain ⟨mac, text, -, hip, hdeclares, hunlisted⟩ := hbind iface clusterIp prefixLen answer hcall
  refine ⟨mac, text, hip, hdeclares, ?_⟩
  rintro rfl
  exact hunlisted (by decide +kernel)

end Turn
end ForwardedIp
