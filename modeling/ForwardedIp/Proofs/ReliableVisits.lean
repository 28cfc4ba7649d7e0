import Mathlib.Data.Multiset.UnionInter
import ForwardedIp.Proofs.CleanVisits
import ForwardedIp.Proofs.ReliableHosts
/-!
# Visits on a reliable host

On a reliable host a visit gets everything that it asks the host for. What it does follows from
the outline of the host and from the ledger alone, if what is wanted is in printed form, if no IP
is bound twice at an index, and if what is wanted is bound as a single host or not at all.
-/
namespace ForwardedIp

open ReliableHost

namespace Observed
variable {H L α : Type}

theorem noting_onHost {action : StateM H α} {call : α → Call} {o : Observed (Machine H L)} {a : α}
    {host : H} (h : action.run o.site.host = (a, host)) :
    (noting (Machine.onHost action) call).run o =
      (a, ⟨{ o.site with host }, o.calls ++ [call a]⟩) := by
  have hsite : (Machine.onHost action : StateM (Machine H L) α) o.site =
      (a, { o.site with host }) :=
    congrArg (fun r : α × H => (r.1, (⟨r.2, o.site.ledger⟩ : Machine H L))) h
  exact congrArg (fun r : α × Machine H L => (r.1, (⟨r.2, o.calls ++ [call r.1]⟩ : Observed _)))
    hsite

theorem noting_onLedger (action : StateM L α) (call : α → Call) (o : Observed (Machine H L)) :
    (noting (Machine.onLedger action) call).run o = ((action.run o.site.ledger).1,
      ⟨{ o.site with ledger := (action.run o.site.ledger).2 },
        o.calls ++ [call (action.run o.site.ledger).1]⟩) := rfl

variable [HostBackend H] [ReliableHost H]

/-- The host of a machine is reliable and has an outline, and the machine has a ledger. -/
structure Shows (o : Observed (Machine H L)) (u : Outline) (l : L) : Prop where
  reliable : Reliable o.site.host
  outline_eq : outline o.site.host = u
  ledger_eq : o.site.ledger = l

namespace Shows
variable [LedgerStore L] {o : Observed (Machine H L)} {u : Outline} {l : L} {iface : LiveInterface}
  {ips : List IpAddr}

theorem interfaces (h : o.Shows u l) :
    ∃ o', Site.interfaces.run o = (.ok u.listed, o') ∧ o'.Shows u l := by
  obtain ⟨hreliable, rfl, rfl⟩ := h
  exact ⟨_, noting_onHost (interfaces_run hreliable), hreliable, rfl, rfl⟩

theorem addresses (h : o.Shows u l) (iface : LiveInterface) : ∃ (found : List LiveAddress) (o' : _),
    (Site.addresses iface).run o = (.ok found, o') ∧
      (found : Multiset LiveAddress) = u.bound iface.index ∧ o'.Shows u l := by
  obtain ⟨hreliable, rfl, rfl⟩ := h
  obtain ⟨found, hrun, hfound⟩ := addresses_run hreliable iface
  exact ⟨found, _, noting_onHost hrun, hfound, hreliable, rfl, rfl⟩

theorem readRecord (h : o.Shows u l) (key : String) : ∃ o',
    (Site.readRecord key).run o = (((LedgerStore.read key).run l).1, o') ∧
      o'.Shows u ((LedgerStore.read key).run l).2 := by
  obtain ⟨hreliable, rfl, rfl⟩ := h
  exact ⟨_, noting_onLedger _ _ o, hreliable, rfl, rfl⟩

theorem writeRecord (h : o.Shows u l) (key : String) (entries : List String) : ∃ o',
    (Site.writeRecord key entries).run o = (((LedgerStore.write key entries).run l).1, o') ∧
      o'.Shows u ((LedgerStore.write key entries).run l).2 := by
  obtain ⟨hreliable, rfl, rfl⟩ := h
  exact ⟨_, noting_onLedger _ _ o, hreliable, rfl, rfl⟩

theorem bind (h : o.Shows u l) {ip : IpAddr} (hfresh : ∀ x ∈ u.bound iface.index, x.ip ≠ ip) :
    ∃ o', (Visit.bindHost iface ip).run o = (.ok (), o') ∧
      o'.Shows (u.put iface.index (.host ip ::ₘ u.bound iface.index)) l := by
  obtain ⟨hreliable, rfl, rfl⟩ := h
  obtain ⟨host, hrun, hreliable', houtline⟩ := bind_run hreliable iface ip ip.hostPrefix hfresh
  exact ⟨_, noting_onHost hrun, hreliable', houtline, rfl⟩

theorem unbind (h : o.Shows u l) {x : LiveAddress} (hbound : x ∈ u.bound iface.index)
    (hsingle : ((u.bound iface.index).map LiveAddress.ip).Nodup) :
    ∃ o', (Site.unbind iface x.ip).run o = (.ok (), o') ∧
      o'.Shows (u.put iface.index ((u.bound iface.index).filter fun y => y.ip ≠ x.ip)) l := by
  obtain ⟨hreliable, rfl, rfl⟩ := h
  obtain ⟨host, hrun, hreliable', houtline⟩ := unbind_run hreliable iface hbound hsingle
  exact ⟨_, noting_onHost hrun, hreliable', houtline, rfl⟩

end Shows
end Observed

/-- An attempt that succeeded. -/
def Attempt.granted (text : String) : Attempt := ⟨text, .ok ()⟩

namespace Observed.Shows
variable {H L : Type} [HostBackend H] [ReliableHost H] [LedgerStore L]
  {o : Observed (Machine H L)} {u : Outline} {l : L} {iface : LiveInterface} {ips : List IpAddr}

/-- IPs that are not yet bound all get bound. -/
theorem bindTexts (h : o.Shows u l) (hnodup : ips.Nodup)
    (hfresh : ∀ ip ∈ ips, ∀ x ∈ u.bound iface.index, x.ip ≠ ip) : ∃ o',
    ((ips.map IpAddr.text).mapM (Visit.bindText iface)).run o =
      ((ips.map IpAddr.text).map Attempt.granted, o') ∧
    o'.Shows (u.put iface.index (u.bound iface.index + (ips.map LiveAddress.host : List _))) l := by
  induction ips generalizing o u with
  | nil =>
    refine ⟨o, rfl, ?_⟩
    simpa using h
  | cons ip ips ih =>
    obtain ⟨hnew, hnodup⟩ := List.nodup_cons.mp hnodup
    obtain ⟨hip, hips⟩ := List.forall_mem_cons.mp hfresh
    obtain ⟨o₁, hrun, h₁⟩ := h.bind hip
    have hfresh₁ : ∀ ip' ∈ ips,
        ∀ x ∈ (u.put iface.index (.host ip ::ₘ u.bound iface.index)).bound iface.index,
          x.ip ≠ ip' := by
      intro ip' hip' x hx
      rw [Outline.put_bound_self] at hx
      rcases Multiset.mem_cons.mp hx with rfl | hx
      · rintro rfl
        exact hnew hip'
      · exact hips ip' hip' x hx
    obtain ⟨o', hruns, h'⟩ := ih h₁ hnodup hfresh₁
    refine ⟨o', ?_, ?_⟩
    · have hbind := Visit.bindText_run iface o (IpAddr.parse?_text ip)
      rw [hrun] at hbind
      rw [List.map_cons, List.mapM_cons, run_bind hbind, run_bind hruns]
      rfl
    · rw [Outline.put_put, Outline.put_bound_self] at h'
      rw [List.map_cons, ← Multiset.cons_coe, Multiset.add_cons, ← Multiset.cons_add]
      exact h'

/-- IPs that are bound once all get unbound. -/
theorem unbindTexts (h : o.Shows u l) (hnodup : ips.Nodup)
    (hbound : ∀ ip ∈ ips, ∃ x ∈ u.bound iface.index, x.ip = ip)
    (hsingle : ((u.bound iface.index).map LiveAddress.ip).Nodup) : ∃ o',
    ((ips.map IpAddr.text).mapM (Visit.unbindText iface)).run o =
      ((ips.map IpAddr.text).map Attempt.granted, o') ∧
    o'.Shows (u.put iface.index ((u.bound iface.index).filter fun x => x.ip ∉ ips)) l := by
  induction ips generalizing o u with
  | nil =>
    refine ⟨o, rfl, ?_⟩
    simpa using h
  | cons ip ips ih =>
    obtain ⟨hnew, hips⟩ := List.nodup_cons.mp hnodup
    obtain ⟨⟨x, hx, rfl⟩, hlater⟩ := List.forall_mem_cons.mp hbound
    obtain ⟨o₁, hrun, h₁⟩ := h.unbind hx hsingle
    let u₁ := u.put iface.index ((u.bound iface.index).filter fun y => y.ip ≠ x.ip)
    have hrest : u₁.bound iface.index = (u.bound iface.index).filter fun y => y.ip ≠ x.ip :=
      Outline.put_bound_self
    have hbound₁ : ∀ ip ∈ ips, ∃ y ∈ u₁.bound iface.index, y.ip = ip := by
      intro ip hip
      obtain ⟨y, hy, rfl⟩ := hlater ip hip
      refine ⟨y, ?_, rfl⟩
      rw [hrest, Multiset.mem_filter]
      exact ⟨hy, fun heq => hnew (heq ▸ hip)⟩
    have hsingle₁ : ((u₁.bound iface.index).map LiveAddress.ip).Nodup := by
      rw [hrest]
      exact Multiset.nodup_of_le (Multiset.map_le_map (Multiset.filter_le _ _)) hsingle
    obtain ⟨o', hruns, h'⟩ := ih h₁ hips hbound₁ hsingle₁
    refine ⟨o', ?_, ?_⟩
    · have hunbind := Visit.unbindText_run iface o (IpAddr.parse?_text x.ip)
      rw [hrun] at hunbind
      rw [List.map_cons, List.mapM_cons, run_bind hunbind, run_bind hruns]
      rfl
    · rw [Outline.put_put, Outline.put_bound_self, Multiset.filter_filter] at h'
      simp only [List.mem_cons, not_or, and_comm] at h' ⊢
      exact h'

end Observed.Shows

namespace Outline
variable {u : Outline} {index : Nat} {adds removes : List IpAddr}

/-- Binds some IPs at an index as single hosts, then unbinds others. -/
def settle (u : Outline) (index : Nat) (adds removes : List IpAddr) : Outline :=
  u.put index <| (u.bound index + (adds.map LiveAddress.host : List LiveAddress)).filter fun x =>
    x.ip ∉ removes

theorem single_add (hsingle : ((u.bound index).map LiveAddress.ip).Nodup) (hadds : adds.Nodup)
    (hfresh : ∀ ip ∈ adds, ∀ x ∈ u.bound index, x.ip ≠ ip) :
    ((u.bound index + (adds.map LiveAddress.host : List _)).map LiveAddress.ip).Nodup := by
  have hips : (adds.map LiveAddress.host).map LiveAddress.ip = adds :=
    List.map_map.trans (List.map_id adds)
  rw [Multiset.map_add, Multiset.map_coe, hips, Multiset.nodup_add]
  refine ⟨hsingle, hadds, Multiset.disjoint_left.mpr ?_⟩
  intro ip hold hnew
  obtain ⟨x, hx, heq⟩ := Multiset.mem_map.mp hold
  exact hfresh ip hnew x hx heq

end Outline

namespace Visit

section Run
variable {N : Type} [Site N] {live : List LiveInterface} {d : DeclaredInterface} {mac : Mac}
  {iface : LiveInterface} {addresses : List LiveAddress} {fault : Fault} {recorded : List String}
  {answer : Except Fault (Option (List String))} {w : Work} {n n₁ n₂ n₃ : N}

theorem run_unparseable (hmac : Mac.parse? d.mac = none) :
    (run live d).run n = (.unparseable d.mac, n) := by
  unfold run
  rw [hmac]
  rfl

theorem run_unmatched (hmac : Mac.parse? d.mac = some mac) (hmatch : matching? live mac = none) :
    (run live d).run n = (.unmatched d.mac mac, n) := by
  unfold run
  simp only [hmac, hmatch]
  rfl

theorem run_unreadable (hmatch : d.MatchedBy live mac iface)
    (haddresses : (Site.addresses iface).run n = (.error fault, n₁)) :
    (run live d).run n = (.unreadable mac iface fault, n₁) := by
  unfold run
  simp only [hmatch.mac_eq, hmatch.iface_eq]
  rw [run_bind haddresses]
  rfl

theorem run_unrecorded (hmatch : d.MatchedBy live mac iface)
    (haddresses : (Site.addresses iface).run n = (.ok addresses, n₁))
    (hread : (Site.readRecord mac.text).run n₁ = (answer, n₂))
    (hrecalled : recalled answer = .error fault) :
    (run live d).run n = (.unrecorded mac iface fault, n₂) := by
  unfold run
  simp only [hmatch.mac_eq, hmatch.iface_eq]
  rw [run_bind haddresses]
  simp only
  rw [run_bind (recallOwned_run hread), hrecalled]
  rfl

theorem run_reconciled (hmatch : d.MatchedBy live mac iface)
    (haddresses : (Site.addresses iface).run n = (.ok addresses, n₁))
    (hread : (Site.readRecord mac.text).run n₁ = (answer, n₂))
    (hrecalled : recalled answer = .ok recorded)
    (hwork : (carryOut mac iface (addresses.map LiveAddress.text) recorded d.forwardedIps).run n₂ =
      (w, n₃)) : (run live d).run n = (.reconciled w, n₃) := by
  unfold run
  simp only [hmatch.mac_eq, hmatch.iface_eq]
  rw [run_bind haddresses]
  simp only
  rw [run_bind (recallOwned_run hread), hrecalled]
  simp only
  rw [run_bind hwork]
  rfl

end Run

/-- The work of a visit that gets everything it asks for. -/
def smoothWork (mac : Mac) (iface : LiveInterface) (bound recorded declared : List String)
    (saved : Except Fault Unit) : Work :=
  let wanted := wantedOf declared
  let diff := AddressDiff.between recorded wanted bound
  { mac, iface, bound, recorded, wanted, saved
    rejected := rejectedOf declared
    binds := diff.toAdd.map Attempt.granted
    unbinds := diff.toRemove.map Attempt.granted
    next := wanted }

theorem nextRecord_granted (wanted adds removes : List String) :
    nextRecord wanted (adds.map Attempt.granted) (removes.map Attempt.granted) = wanted := by
  have hgranted : ∀ texts : List String, ∀ a ∈ texts.map Attempt.granted, a.failed = false := by
    intro texts a ha
    obtain ⟨t, -, rfl⟩ := List.mem_map.mp ha
    rfl
  rw [nextRecord, foldl_afterBind_of_clean (hgranted adds),
    foldl_afterUnbind_of_clean (hgranted removes)]

variable {H L : Type} [HostBackend H] [ReliableHost H] [LedgerStore L]
  {o : Observed (Machine H L)} {u : Outline} {l : L} {iface : LiveInterface} {mac : Mac}
  {bound recorded declared : List String}

/-- What has to be known about an interface so that a visit gets what it asks for: the declaration
is in printed form, no IP is bound twice, and what is declared is bound as a single host or not at
all. -/
structure Ready (u : Outline) (index : Nat) (declared : List String) : Prop where
  printed : Printed declared
  single : ((u.bound index).map LiveAddress.ip).Nodup
  host : ∀ x ∈ u.bound index, x.ip.text ∈ declared → x = .host x.ip

/-- The addresses that a visit binds are not bound yet. -/
theorem Ready.toAdd (h : Ready u iface.index declared) (recorded : List String)
    (hbound : (bound : Multiset String) = (u.bound iface.index).map LiveAddress.text)
    {adds : List IpAddr}
    (hadds : adds = IpAddr.ofTexts (AddressDiff.between recorded (wantedOf declared) bound).toAdd) :
    adds.map IpAddr.text = (AddressDiff.between recorded (wantedOf declared) bound).toAdd ∧
      adds.Nodup ∧ ∀ ip ∈ adds, ∀ x ∈ u.bound iface.index, x.ip ≠ ip := by
  let toAdd := (AddressDiff.between recorded (wantedOf declared) bound).toAdd
  have hprinted : ∀ t ∈ toAdd, ∃ ip : IpAddr, t = ip.text := by
    intro t ht
    obtain ⟨hdeclared, hip⟩ := mem_wantedOf.mp (AddressDiff.mem_toAdd.mp ht).1
    obtain ⟨ip, hip⟩ := Option.isSome_iff_exists.mp hip
    exact ⟨ip, h.printed t hdeclared ip hip⟩
  have hmap : adds.map IpAddr.text = toAdd := hadds ▸ IpAddr.map_text_ofTexts hprinted
  have hnodup : toAdd.Nodup := nodup_eraseDups _
  refine ⟨hmap, (hmap ▸ hnodup).of_map, ?_⟩
  rintro ip hip x hx rfl
  have hmem : x.ip.text ∈ toAdd := hmap ▸ List.mem_map_of_mem hip
  obtain ⟨hwanted, hfree⟩ := AddressDiff.mem_toAdd.mp hmem
  have htext := LiveAddress.text_eq_text.mpr (h.host x hx (mem_wantedOf.mp hwanted).1)
  refine hfree (Multiset.mem_coe.mp ?_)
  rw [hbound, ← htext]
  exact Multiset.mem_map_of_mem LiveAddress.text hx

/-- The addresses that a visit unbinds are bound. -/
theorem exists_toRemove (hrecorded : ∀ t ∈ recorded, IpAddr.isIp t = true)
    (hbound : (bound : Multiset String) = (u.bound iface.index).map LiveAddress.text)
    {removes : List IpAddr}
    (hremoves : removes =
      IpAddr.ofTexts (AddressDiff.between recorded (wantedOf declared) bound).toRemove) :
    removes.map IpAddr.text = (AddressDiff.between recorded (wantedOf declared) bound).toRemove ∧
      removes.Nodup ∧ ∀ ip ∈ removes, ∃ x ∈ u.bound iface.index, x.ip = ip := by
  let toRemove := (AddressDiff.between recorded (wantedOf declared) bound).toRemove
  have hread : ∀ t ∈ bound, ∃ x ∈ u.bound iface.index, x.text = t := by
    intro t ht
    rw [← Multiset.mem_coe, hbound] at ht
    exact Multiset.mem_map.mp ht
  have hprinted : ∀ t ∈ toRemove, ∃ ip : IpAddr, t = ip.text := by
    intro t ht
    obtain ⟨hmem, howned, -⟩ := AddressDiff.mem_toRemove.mp ht
    obtain ⟨ip, hip⟩ := Option.isSome_iff_exists.mp (hrecorded t howned)
    obtain ⟨x, -, rfl⟩ := hread t hmem
    exact ⟨ip, LiveAddress.eq_text_of_parse? hip⟩
  have hmap : removes.map IpAddr.text = toRemove := hremoves ▸ IpAddr.map_text_ofTexts hprinted
  have hnodup : toRemove.Nodup := nodup_eraseDups _
  refine ⟨hmap, (hmap ▸ hnodup).of_map, fun ip hip => ?_⟩
  have hmem : ip.text ∈ toRemove := hmap ▸ List.mem_map_of_mem hip
  obtain ⟨x, hx, htext⟩ := hread ip.text (AddressDiff.mem_toRemove.mp hmem).1
  exact ⟨x, hx, congrArg LiveAddress.ip (LiveAddress.text_eq_text.mp htext)⟩

/-- On a reliable host the work of a visit follows from what was read, and so does its effect on
the host and the ledger. -/
theorem carryOut_run (h : o.Shows u l) (mac : Mac) (hready : Ready u iface.index declared)
    (hrecorded : ∀ t ∈ recorded, IpAddr.isIp t = true)
    (hbound : (bound : Multiset String) = (u.bound iface.index).map LiveAddress.text)
    {adds removes : List IpAddr}
    (hadds : adds = IpAddr.ofTexts (AddressDiff.between recorded (wantedOf declared) bound).toAdd)
    (hremoves : removes =
      IpAddr.ofTexts (AddressDiff.between recorded (wantedOf declared) bound).toRemove)
    {saved : Except Fault Unit} {l' : L}
    (hwrite : (LedgerStore.write mac.text (wantedOf declared)).run l = (saved, l')) :
    ∃ o', (carryOut mac iface bound recorded declared).run o =
        (smoothWork mac iface bound recorded declared saved, o') ∧
      o'.Shows (u.settle iface.index adds removes) l' := by
  obtain ⟨haddTexts, hnodup, hfresh⟩ := hready.toAdd recorded hbound hadds
  obtain ⟨hremoveTexts, hnodup', hthere⟩ := exists_toRemove hrecorded hbound hremoves
  obtain ⟨o₁, hbinds, h₁⟩ := h.bindTexts hnodup hfresh
  let u₁ := u.put iface.index
    (u.bound iface.index + (adds.map LiveAddress.host : List LiveAddress))
  have hbound₁ : u₁.bound iface.index =
      u.bound iface.index + (adds.map LiveAddress.host : List LiveAddress) :=
    Outline.put_bound_self
  have hsingle₁ : ((u₁.bound iface.index).map LiveAddress.ip).Nodup := by
    rw [hbound₁]
    exact Outline.single_add hready.single hnodup hfresh
  have hthere₁ : ∀ ip ∈ removes, ∃ x ∈ u₁.bound iface.index, x.ip = ip := by
    intro ip hip
    obtain ⟨x, hx, hip⟩ := hthere ip hip
    rw [hbound₁]
    exact ⟨x, Multiset.mem_add.mpr (.inl hx), hip⟩
  obtain ⟨o₂, hunbinds, h₂⟩ := h₁.unbindTexts hnodup' hthere₁ hsingle₁
  obtain ⟨o₃, hwritten, h₃⟩ := h₂.writeRecord mac.text (wantedOf declared)
  rw [hwrite] at hwritten h₃
  rw [Outline.put_put, Outline.put_bound_self] at h₃
  refine ⟨o₃, ?_, h₃⟩
  rw [haddTexts] at hbinds
  rw [hremoveTexts] at hunbinds
  rw [carryOut, run_bind hbinds, run_bind hunbinds, nextRecord_granted, run_bind hwritten]
  rfl

end Visit
end ForwardedIp
