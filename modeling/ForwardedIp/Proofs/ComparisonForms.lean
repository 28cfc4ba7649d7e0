import ForwardedIp.Proofs.Differences
import ForwardedIp.Proofs.ReliableVisits
/-!
# Comparison forms identify bound addresses

The text of a bound address tells its IP and its prefix length. A text that is an IP address is the
text of a bound address only with the host prefix and in printed form. So what a visit wants or
owns never meets an address that is bound with another prefix, and the visit does what it would do
if no such address had been read.
-/
namespace ForwardedIp

namespace LiveAddress
variable {a b : LiveAddress} {s : String}

/-- Bound addresses with the same text are the same. -/
theorem text_injective (h : a.text = b.text) : a = b := by
  have hhosts : a.IsHost ↔ b.IsHost := by
    rw [← not_iff_not, ← slash_mem_text_iff, ← slash_mem_text_iff, h]
  by_cases ha : a.IsHost
  · have hb := hhosts.mp ha
    rw [ha.text_eq, hb.text_eq] at h
    rw [ha.eq_host, hb.eq_host, IpAddr.text_injective h]
  · have hb : ¬b.IsHost := fun hb => ha (hhosts.mpr hb)
    have hchars := congrArg String.toList h
    rw [toList_text_of_not_isHost ha, toList_text_of_not_isHost hb] at hchars
    -- Neither side of the slash has another one, so the two texts are split at the same place.
    obtain ⟨hip, -, hdigits⟩ := (List.append_cons_inj_of_notMem a.ip.slash_notMem_text
      (Text.notMem_toDigits (by decide) a.prefixLen)).mp hchars
    have hips : a.ip = b.ip := IpAddr.text_injective (String.toList_inj.mp hip)
    have hlens : some a.prefixLen = some b.prefixLen := by
      rw [← Text.ofDecimal?_toDigits, hdigits, Text.ofDecimal?_toDigits]
    cases a
    cases b
    exact congrArg₂ LiveAddress.mk hips (Option.some.inj hlens)

/-- Only an address that is bound as a single host has the text of an IP. -/
theorem isIp_text_iff : IpAddr.isIp a.text = true ↔ a.IsHost := by
  rw [IpAddr.isIp, Option.isSome_iff_exists]
  constructor
  · rintro ⟨ip, hip⟩
    rw [parse?_text.mp hip]
    rfl
  · intro h
    exact ⟨a.ip, parse?_text.mpr h.eq_host⟩

theorem eq_text_iff (hs : IpAddr.isIp s = true) : s = a.text ↔ a.IsHost ∧ s = a.ip.text := by
  constructor
  · rintro rfl
    have h := isIp_text_iff.mp hs
    exact ⟨h, h.text_eq⟩
  · rintro ⟨h, rfl⟩
    exact h.text_eq.symm

/-- The texts of the addresses that are bound as single hosts. -/
def hostTexts (addresses : List LiveAddress) : List String :=
  (addresses.filter (·.IsHost)).map text

/-- They are the texts that are IP addresses. -/
theorem hostTexts_eq (addresses : List LiveAddress) :
    hostTexts addresses = (addresses.map text).filter IpAddr.isIp := by
  rw [hostTexts, List.filter_map]
  congr 1
  refine List.filter_congr fun a _ => ?_
  rw [Function.comp_apply, Bool.eq_iff_iff, isIp_text_iff, decide_eq_true_iff]

end LiveAddress

namespace Visit
variable {N : Type} [Site N] {live : List LiveInterface} {d : DeclaredInterface} {mac : Mac}
  {iface : LiveInterface} {bound bound' recorded declared : List String} {n n' : N} {w : Work}

/-- Of what is bound the work sees nothing but the difference. -/
theorem carryOut_congr (h : AddressDiff.between recorded (wantedOf declared) bound' =
      AddressDiff.between recorded (wantedOf declared) bound)
    (hwork : (carryOut mac iface bound recorded declared).run n = (w, n')) :
    (carryOut mac iface bound' recorded declared).run n = ({ w with bound := bound' }, n') := by
  obtain ⟨rfl, rfl⟩ := Prod.mk.inj hwork
  simp only [carryOut, h]
  rfl

theorem Reconciliation.carryOut_run (r : Reconciliation live d n w n')
    (hrun : (run live d).run n = (.reconciled w, n')) :
    (carryOut w.mac w.iface w.bound w.recorded d.forwardedIps).run r.afterRead = (w, n') := by
  have hagain := run_reconciled ⟨r.mac_eq, r.iface_eq⟩ r.addresses_run r.read_run r.recorded_eq rfl
  rw [hrun] at hagain
  obtain ⟨hvisit, hsite⟩ := Prod.mk.inj hagain
  rw [r.bound_eq]
  exact Prod.ext (Visit.reconciled.inj hvisit).symm hsite.symm

/-- What a visit wants or owns does not meet an address that is bound with another prefix. -/
theorem Reconciliation.text_unmatched (r : Reconciliation live d n w n') {a : LiveAddress}
    (ha : ¬a.IsHost) : a.text ∉ w.wanted ∧ a.text ∉ w.recorded := by
  rw [← LiveAddress.isIp_text_iff] at ha
  exact ⟨fun hwanted => ha (r.mem_wanted.mp hwanted).2,
    fun hrecorded => ha (isIp_of_mem_recalled r.recorded_eq hrecorded).1⟩

/-- The work is what it would be if only addresses of single hosts had been read. -/
theorem Reconciliation.carryOut_hostTexts (r : Reconciliation live d n w n')
    (hrun : (run live d).run n = (.reconciled w, n')) :
    (carryOut w.mac w.iface (LiveAddress.hostTexts r.addresses) w.recorded d.forwardedIps).run
      r.afterRead = ({ w with bound := LiveAddress.hostTexts r.addresses }, n') := by
  refine carryOut_congr ?_ (r.carryOut_run hrun)
  rw [LiveAddress.hostTexts_eq, ← r.bound_eq]
  exact AddressDiff.between_filter_bound (fun t ht => (isIp_of_mem_recalled r.recorded_eq ht).1)
    fun t ht => (mem_wantedOf.mp ht).2

end Visit

namespace LiveAddress

/-- The text of a bound address tells which one it is. Among the texts that are IP addresses it is
the printed form of the IP, and only with the host prefix. So no visit wants or owns an address
that is bound with another prefix, and once a visit has read what is bound and what is recorded, it
does what it would do without such addresses. -/
theorem text_identifies :
    (∀ a b : LiveAddress, a.text = b.text → a = b) ∧
    (∀ s, IpAddr.isIp s = true → ∀ ip prefixLen,
      (s = text ⟨ip, prefixLen⟩ ↔ prefixLen = ip.hostPrefix ∧ s = ip.text) ∧
        (s = text ⟨ip, prefixLen⟩ → IpAddr.parse? s = some ip)) ∧
    ∀ (N : Type) [Site N] (live : List LiveInterface) (d : DeclaredInterface) (n n' : N) (w : Work),
      (Visit.run live d).run n = (.reconciled w, n') →
        (∀ a : LiveAddress, a.prefixLen ≠ a.ip.hostPrefix →
          a.text ∉ w.wanted ∧ a.text ∉ w.recorded) ∧
        ∃ addresses n₁ n₂, (Site.addresses w.iface).run n = (.ok addresses, n₁) ∧
          w.bound = addresses.map text ∧
          (Visit.recallOwned w.mac).run n₁ = (.ok w.recorded, n₂) ∧
          (Visit.carryOut w.mac w.iface (hostTexts addresses) w.recorded d.forwardedIps).run n₂ =
            ({ w with bound := hostTexts addresses }, n') := by
  refine ⟨fun a b => text_injective, fun s hs ip prefixLen => ⟨eq_text_iff hs, ?_⟩, ?_⟩
  · intro htext
    obtain ⟨-, rfl⟩ := (eq_text_iff hs).mp htext
    exact IpAddr.parse?_text ip
  · intro N _ live d n n' w hrun
    cases Visit.goes hrun with
    | reconciled r =>
      refine ⟨fun a => r.text_unmatched, r.addresses, r.afterAddresses, r.afterRead,
        r.addresses_run, r.bound_eq, ?_, r.carryOut_hostTexts hrun⟩
      rw [Visit.recallOwned_run r.read_run, r.recorded_eq]

/-- The address of an interface in its network. -/
def primary : LiveAddress := ⟨.v4 ⟨[10, 128, 0, 2], rfl⟩, 24⟩

/-- Both addresses of the interface are recorded, one of them is bound as a single host. -/
def primaryMachine : Machine MemoryHost MemoryLedger :=
  .single "02:00:00:00:00:0a" [primary, .host Machine.tenFive] ["10.128.0.2", "10.0.0.5"]

/-- The primary address is declared as a forwarded one. -/
def primaryDeclared : DeclaredInterface := ⟨"02:00:00:00:00:0a", ["10.128.0.2"]⟩

theorem primary_unmatched : IpAddr.isIp "10.128.0.2" = true ∧ "10.128.0.2" ≠ primary.text ∧
    ∃ w m', (Visit.run primaryMachine.host.interfaces primaryDeclared).run primaryMachine =
        (.reconciled w, m') ∧ primary.text ∈ w.bound ∧ primary.text ∉ w.wanted ∧
      primary.text ∉ w.recorded ∧ w.binds.map (·.ip) = ["10.128.0.2"] ∧
      w.unbinds.map (·.ip) = ["10.0.0.5"] := by
  obtain ⟨-, htexts, hvisits⟩ := text_identifies
  have hip : IpAddr.isIp "10.128.0.2" = true := by decide +kernel
  have hprefix : primary.prefixLen ≠ primary.ip.hostPrefix := by decide
  have hne : "10.128.0.2" ≠ primary.text := fun htext =>
    hprefix ((htexts _ hip primary.ip primary.prefixLen).1.mp htext).1
  have hwork : ((Visit.run primaryMachine.host.interfaces primaryDeclared).run
      primaryMachine).1.work?.any (fun w => w.bound.contains primary.text &&
        w.binds.map (·.ip) == ["10.128.0.2"] && w.unbinds.map (·.ip) == ["10.0.0.5"]) = true := by
    decide +kernel
  cases hrun : (Visit.run primaryMachine.host.interfaces primaryDeclared).run primaryMachine with
  | mk v m' =>
  rw [hrun] at hwork
  cases v with
  | reconciled w =>
    obtain ⟨hunmatched, -⟩ := hvisits _ _ _ _ _ w hrun
    obtain ⟨hwanted, hrecorded⟩ := hunmatched primary hprefix
    obtain ⟨hfirst, hunbinds⟩ := Bool.and_eq_true_iff.mp hwork
    obtain ⟨hbound, hbinds⟩ := Bool.and_eq_true_iff.mp hfirst
    exact ⟨hip, hne, w, m', rfl, List.contains_iff_mem.mp hbound, hwanted, hrecorded,
      eq_of_beq hbinds, eq_of_beq hunbinds⟩
  | _ => cases hwork

end LiveAddress

end ForwardedIp
