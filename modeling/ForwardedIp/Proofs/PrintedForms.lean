import ForwardedIp.Ip
import ForwardedIp.Mac
/-!
# Printed forms

The reconciler compares addresses as texts and acts on addresses. The two agree on printed forms:
an IP address reads back from its printed form, a bound address reads back as an IP only if it
carries the host prefix, and no two hardware addresses share a canonical text.
-/
namespace ForwardedIp

namespace Text

theorem ofDigits?_append_singleton (digit? : Char → Option Nat) (base : Nat) (cs : List Char)
    (c : Char) : ofDigits? digit? base (cs ++ [c]) =
      (ofDigits? digit? base cs).bind fun n => (digit? c).map (base * n + ·) := by
  simp [ofDigits?, List.foldlM_append]

/-- A number reads back from its digits. -/
theorem ofDigits?_toDigits {digit? : Char → Option Nat} {base : Nat} (hb : 1 < base)
    (hdigit : ∀ d, d < base → digit? (Nat.digitChar d) = some d) (n : Nat) :
    ofDigits? digit? base (Nat.toDigits base n) = some n := by
  induction n using Nat.strongRecOn with
  | ind n ih =>
    rw [Nat.toDigits_eq_if hb]
    split
    · next hn => simp [ofDigits?, hdigit n hn]
    · next hn =>
      have hlt : n / base < n := Nat.div_lt_self (by omega) hb
      rw [ofDigits?_append_singleton, ih _ hlt, hdigit _ (Nat.mod_lt n (by omega))]
      simp [Nat.div_add_mod]

theorem decimalDigit?_digitChar : ∀ d, d < 10 → decimalDigit? (Nat.digitChar d) = some d := by
  decide

/-- The decimal digits are among the hexadecimal ones. -/
theorem decimalDigit?_eq_none {c : Char} (h : hexDigit? c = none) : decimalDigit? c = none := by
  rw [decimalDigit?]
  split
  · next hc => rw [hexDigit?, if_pos hc] at h; cases h
  · rfl

theorem ofDecimal?_toDigits (n : Nat) : ofDecimal? (Nat.toDigits 10 n) = some n :=
  ofDigits?_toDigits (by decide) decimalDigit?_digitChar n

theorem ofHex?_toDigits (n : Nat) : ofHex? (Nat.toDigits 16 n) = some n :=
  ofDigits?_toDigits (by decide) hexDigit?_digitChar n

theorem ofDigits?_eq_none {digit? : Char → Option Nat} {base : Nat} {cs : List Char} {c : Char}
    (hc : c ∈ cs) (hdigit : digit? c = none) : ofDigits? digit? base cs = none := by
  obtain ⟨front, back, rfl⟩ := List.append_of_mem hc
  simp only [ofDigits?, List.foldlM_append, List.foldlM_cons, hdigit]
  cases List.foldlM (fun n c => (digit? c).map (base * n + ·)) 0 front <;> rfl

theorem notMem_toDigits {c : Char} (hc : c.isDigit = false) (n : Nat) :
    c ∉ Nat.toDigits 10 n := by
  intro hmem
  have hdigit := Nat.isDigit_of_mem_toDigits (by decide) (by decide) hmem
  rw [hc] at hdigit
  cases hdigit

/-- Only zero has a zero for its first digit. -/
theorem head?_toDigits_ne {base n : Nat} (hb : 1 < base) (hn : 0 < n) :
    (Nat.toDigits base n).head? ≠ some '0' := by
  induction n using Nat.strongRecOn with
  | ind n ih =>
    rw [Nat.toDigits_eq_if hb]
    split
    · simpa using Nat.ne_of_gt hn
    · next hge =>
      have hpos : 0 < n / base := Nat.div_pos (by omega) (by omega)
      have hlt : n / base < n := Nat.div_lt_self hn hb
      have hsome : (Nat.toDigits base (n / base)).head?.isSome := by
        simp [List.isSome_head?]
      rw [List.head?_append, Option.or_of_isSome hsome]
      exact ih _ hlt hpos

theorem mem_splitOn {cs : List Char} {c sep : Char} (hc : c ∈ cs) (hne : c ≠ sep) :
    ∃ piece ∈ cs.splitOn sep, c ∈ piece := by
  have key : ∀ pieces : List (List Char), c ∈ [sep].intercalate pieces →
      ∃ piece ∈ pieces, c ∈ piece := by
    intro pieces
    induction pieces with
    | nil => simp
    | cons piece pieces ih =>
      cases pieces with
      | nil => simp
      | cons next rest =>
        intro h
        simp only [List.intercalate_cons_cons, List.mem_append, List.mem_singleton, hne,
          or_false] at h
        rcases h with h | h
        · exact ⟨piece, by simp, h⟩
        · obtain ⟨other, ho, hco⟩ := ih h
          exact ⟨other, List.mem_cons_of_mem _ ho, hco⟩
  exact key _ (by simpa using hc)

theorem mapM_map_some {α β : Type} {read : β → Option α} {print : α → β} {as : List α}
    (h : ∀ a ∈ as, read (print a) = some a) : (as.map print).mapM read = some as := by
  induction as with
  | nil => rfl
  | cons a as ih =>
    rw [List.map_cons, List.mapM_cons, h a (by simp), ih fun b hb => h b (by simp [hb])]
    rfl

theorem mapM_eq_none {α β : Type} {read : β → Option α} {b : β} {bs : List β} (hb : b ∈ bs)
    (hread : read b = none) : bs.mapM read = none := by
  induction bs with
  | nil => simp at hb
  | cons first rest ih =>
    rw [List.mapM_cons]
    rcases List.mem_cons.mp hb with rfl | hb
    · rw [hread]; rfl
    · rw [ih hb]
      cases read first <;> rfl

end Text

namespace Ip.V4

theorem octet?_toDigits (o : UInt8) : octet? (Nat.toDigits 10 o.toNat) = some o := by
  have hlt : o.toNat < 256 := o.toNat_lt
  have hlen : (Nat.toDigits 10 o.toNat).length ≤ 3 :=
    (Nat.length_toDigits_le_iff (by decide) (by decide)).mpr (by omega)
  have hzero : (Nat.toDigits 10 o.toNat).head? = some '0' →
      (Nat.toDigits 10 o.toNat).length = 1 := by
    intro h
    rcases Nat.eq_zero_or_pos o.toNat with ho | ho
    · simp [ho]
    · exact absurd h (Text.head?_toDigits_ne (by decide) ho)
  simp only [octet?, Text.ofDecimal?_toDigits, Option.bind_eq_bind, Option.bind_some]
  rw [if_pos ⟨Nat.toDigits_ne_nil, hlen, hzero, hlt⟩, UInt8.ofNat_toNat]

theorem parse?_chars (ip : V4) : parse? ip.chars = some ip := by
  have hsplit : ip.chars.splitOn '.' = ip.octets.map fun o => Nat.toDigits 10 o.toNat := by
    refine List.splitOn_intercalate '.' ?_ ?_
    · intro digits hd
      obtain ⟨o, -, rfl⟩ := List.mem_map.mp hd
      exact Text.notMem_toDigits (by decide) o.toNat
    · intro h
      have hlen := ip.length_octets
      simp [List.map_eq_nil_iff.mp h] at hlen
  rw [parse?, hsplit, Text.mapM_map_some fun o _ => octet?_toDigits o]
  simp [ofOctets?, ip.length_octets]

theorem octet?_eq_none {digits : List Char} {c : Char} (hc : c ∈ digits)
    (hdigit : Text.decimalDigit? c = none) : octet? digits = none := by
  rw [octet?, Text.ofDecimal?, Text.ofDigits?_eq_none hc hdigit]
  rfl

theorem parse?_eq_none {cs : List Char} {c : Char} (hc : c ∈ cs) (hdot : c ≠ '.')
    (hdigit : Text.decimalDigit? c = none) : parse? cs = none := by
  obtain ⟨piece, hpiece, hcp⟩ := Text.mem_splitOn hc hdot
  rw [parse?, Text.mapM_eq_none hpiece (octet?_eq_none hcp hdigit)]
  rfl

end Ip.V4

namespace Ip.V6

theorem group?_toDigits (g : UInt16) : group? (groupChars g) = some g := by
  have hlt : g.toNat < 65536 := g.toNat_lt
  have hne : groupChars g ≠ [] := Nat.toDigits_ne_nil
  have hlen : (groupChars g).length ≤ 4 :=
    (Nat.length_toDigits_le_iff (by decide) (by decide)).mpr (by omega)
  have hread : Text.ofHex? (groupChars g) = some g.toNat := Text.ofHex?_toDigits g.toNat
  simp only [group?, hread, Option.bind_eq_bind, Option.bind_some]
  rw [if_pos ⟨hne, hlen⟩, UInt16.ofNat_toNat]

theorem colon_notMem_groupChars (g : UInt16) : ':' ∉ groupChars g := by
  intro h
  have hread := group?_toDigits g
  rw [group?, Text.ofHex?, Text.ofDigits?_eq_none h (by decide)] at hread
  cases hread

/-- Pieces that colons can join: none is empty, none has a colon of its own. -/
def Joinable (ps : List (List Char)) : Prop := ∀ p ∈ ps, p ≠ [] ∧ ':' ∉ p

theorem joinable_groups (groups : List UInt16) : Joinable (groups.map groupChars) := by
  intro p hp
  obtain ⟨g, -, rfl⟩ := List.mem_map.mp hp
  exact ⟨Nat.toDigits_ne_nil, colon_notMem_groupChars g⟩

/-- Puts a text in front of what stands before a gap. -/
def before (front : List Char) (gap : List Char × List Char) : List Char × List Char :=
  (front ++ gap.1, gap.2)

@[simp] theorem before_nil : before [] = id := rfl

/-- A piece without colons has no gap, and none begins at its end. -/
theorem splitGap_append {p : List Char} (hp : ':' ∉ p) (rest : List Char) :
    splitGap (p ++ rest) = (splitGap rest).map (before p) := by
  induction p with
  | nil => simp
  | cons c p ih =>
    have hc : c ≠ ':' := fun h => hp (by simp [h])
    have hstep : splitGap (c :: (p ++ rest)) = (splitGap (p ++ rest)).map (before [c]) := by
      rw [splitGap]
      · rfl
      · intro _ h
        exact absurd h hc
    rw [List.cons_append, hstep, ih fun h => hp (by simp [h]), Option.map_map]
    rfl

theorem splitGap_colon {p : List Char} (hne : p ≠ []) (hp : ':' ∉ p) (rest : List Char) :
    splitGap (':' :: (p ++ rest)) = (splitGap (p ++ rest)).map (before [':']) := by
  cases p with
  | nil => exact absurd rfl hne
  | cons c p =>
    have hc : c ≠ ':' := fun h => hp (by simp [h])
    rw [List.cons_append, splitGap]
    · rfl
    · intro tail _ h
      injection h with h
      exact hc h

theorem splitGap_joined {ps : List (List Char)} (hps : Joinable ps) (rest : List Char) :
    splitGap ([':'].intercalate ps ++ rest) =
      (splitGap rest).map (before ([':'].intercalate ps)) := by
  induction ps with
  | nil => simp
  | cons p ps ih =>
    obtain ⟨-, hp⟩ := hps p (by simp)
    cases ps with
    | nil => simpa using splitGap_append hp rest
    | cons q ps =>
      obtain ⟨hqne, hq⟩ := hps q (by simp)
      have htail := ih fun r hr => hps r (List.mem_cons_of_mem _ hr)
      have hjoin : ∃ tail, [':'].intercalate (q :: ps) = q ++ tail := by
        cases ps with
        | nil => exact ⟨[], by simp⟩
        | cons r ps => exact ⟨[':'] ++ [':'].intercalate (r :: ps), by simp⟩
      obtain ⟨tail, hjoin⟩ := hjoin
      rw [List.intercalate_cons_cons, List.append_assoc, List.append_assoc,
        splitGap_append hp, List.singleton_append, hjoin, List.append_assoc,
        splitGap_colon hqne hq, ← List.append_assoc, ← hjoin, htail]
      simp only [Option.map_map]
      congr 1
      funext ⟨head, back⟩
      simp [before]

theorem pieces_joined {ps : List (List Char)} (hps : Joinable ps) :
    pieces ([':'].intercalate ps) = ps := by
  cases ps with
  | nil => rfl
  | cons p ps =>
    have hne : [':'].intercalate (p :: ps) ≠ [] := by
      have hp := (hps p (by simp)).1
      cases ps <;> simp [hp]
    rw [pieces, if_neg (by simpa using hne)]
    exact List.splitOn_intercalate ':' (fun q hq => (hps q hq).2) (by simp)

theorem pieces_groupsChars (groups : List UInt16) :
    pieces (groupsChars groups) = groups.map groupChars := pieces_joined (joinable_groups groups)

theorem mapM_groups (groups : List UInt16) :
    (groups.map groupChars).mapM group? = some groups :=
  Text.mapM_map_some fun g _ => group?_toDigits g

theorem tail?_groups (groups : List UInt16) : tail? (groups.map groupChars) = some groups := by
  induction groups with
  | nil => rfl
  | cons g groups ih =>
    cases groups with
    | nil => simp [tail?, group?_toDigits]
    | cons h rest =>
      rw [List.map_cons] at ih ⊢
      rw [List.map_cons, tail?, ih, group?_toDigits]
      · rfl
      · simp

theorem leadingZeros_spec (groups : List UInt16) :
    leadingZeros groups ≤ groups.length ∧
      groups = List.replicate (leadingZeros groups) 0 ++ groups.drop (leadingZeros groups) := by
  induction groups with
  | nil => simp [leadingZeros]
  | cons g rest ih =>
    obtain ⟨hle, heq⟩ := ih
    by_cases hg : g = 0
    · have hcount : leadingZeros (g :: rest) = leadingZeros rest + 1 := by
        simp [leadingZeros, hg]
      rw [hcount, List.replicate_succ, List.drop_succ_cons, List.cons_append, ← heq, hg]
      exact ⟨by simpa using hle, rfl⟩
    · have hcount : leadingZeros (g :: rest) = 0 := by simp [leadingZeros, hg]
      simp [hcount]

/-- What is counted as a run of zeros is one. -/
theorem longestZeros_spec (groups : List UInt16) :
    (longestZeros groups).1 + (longestZeros groups).2 ≤ groups.length ∧
      groups = groups.take (longestZeros groups).1 ++
        List.replicate (longestZeros groups).2 0 ++
        groups.drop ((longestZeros groups).1 + (longestZeros groups).2) := by
  induction groups with
  | nil => simp [longestZeros]
  | cons g rest ih =>
    obtain ⟨hle, heq⟩ := ih
    have hstep : longestZeros (g :: rest) =
        if (longestZeros rest).2 ≤ leadingZeros (g :: rest) then (0, leadingZeros (g :: rest))
        else ((longestZeros rest).1 + 1, (longestZeros rest).2) := rfl
    rw [hstep]
    split
    · obtain ⟨hzeros, hsplit⟩ := leadingZeros_spec (g :: rest)
      exact ⟨by simpa using hzeros, by simpa using hsplit⟩
    · simp only [List.length_cons]
      refine ⟨by omega, ?_⟩
      rw [Nat.add_right_comm, List.take_succ_cons, List.drop_succ_cons, List.cons_append,
        List.cons_append, ← heq]

/-- The groups around a gap read back, with the zeros that the gap stands for. -/
theorem parse?_gap {head tail : List UInt16} {zeros : Nat}
    (hlen : (head ++ List.replicate zeros 0 ++ tail).length = 8) (hgap : 1 ≤ zeros) :
    parse? (groupsChars head ++ [':', ':'] ++ groupsChars tail) =
      some ⟨head ++ List.replicate zeros 0 ++ tail, hlen⟩ := by
  have hsplit : splitGap (groupsChars head ++ [':', ':'] ++ groupsChars tail) =
      some (groupsChars head, groupsChars tail) := by
    rw [groupsChars, List.append_assoc, splitGap_joined (joinable_groups head)]
    simp [splitGap, before]
  have hcount : head.length + (zeros + tail.length) = 8 := by simpa using hlen
  have hzeros : 8 - head.length - tail.length = zeros := by omega
  simp only [parse?, hsplit, pieces_groupsChars, mapM_groups, tail?_groups, Option.bind_eq_bind,
    Option.bind_some]
  rw [if_pos (by omega), hzeros, ofGroups?, dif_pos hlen]

theorem parse?_groupsChars (ip : V6) : parse? (groupsChars ip.groups) = some ip := by
  have hsplit : splitGap (groupsChars ip.groups) = none := by
    have h := splitGap_joined (joinable_groups ip.groups) []
    simpa [splitGap, groupsChars] using h
  simp only [parse?, hsplit, pieces_groupsChars, tail?_groups, Option.bind_eq_bind,
    Option.bind_some]
  rw [ofGroups?, dif_pos ip.length_groups]

theorem ofOctetPair_split (g : UInt16) :
    ofOctetPair (UInt8.ofNat (g.toNat / 256)) (UInt8.ofNat (g.toNat % 256)) = g := by
  have hlt : g.toNat < 65536 := g.toNat_lt
  have hhigh : (UInt8.ofNat (g.toNat / 256)).toNat = g.toNat / 256 := by
    rw [UInt8.toNat_ofNat']; omega
  have hlow : (UInt8.ofNat (g.toNat % 256)).toNat = g.toNat % 256 := by
    rw [UInt8.toNat_ofNat']; omega
  rw [ofOctetPair, hhigh, hlow, Nat.div_add_mod, UInt16.ofNat_toNat]

/-- An address that stands for an IPv4 one reads back from its form with dots. -/
theorem parse?_mapped {ip : V6} {v4 : V4} (h : ip.mappedV4? = some v4) :
    parse? ([':', ':', 'f', 'f', 'f', 'f', ':'] ++ v4.chars) = some ip := by
  obtain ⟨groups, hlen⟩ := ip
  unfold mappedV4? at h
  split at h
  · next a b heq =>
    obtain rfl : groups = [0, 0, 0, 0, 0, 0xffff, a, b] := heq
    have hdot : '.' ∈ v4.chars := by
      obtain rfl := Option.some.inj h
      simp [V4.chars]
    have hcolon : ':' ∉ v4.chars := by
      intro hmem
      have hread := V4.parse?_chars v4
      rw [V4.parse?_eq_none hmem (by decide) (by decide)] at hread
      cases hread
    have hsplit : splitGap ([':', ':', 'f', 'f', 'f', 'f', ':'] ++ v4.chars) =
        some ([], ['f', 'f', 'f', 'f', ':'] ++ v4.chars) := rfl
    have hpieces : pieces (['f', 'f', 'f', 'f', ':'] ++ v4.chars) =
        [['f', 'f', 'f', 'f'], v4.chars] := by
      have hjoinable : Joinable [['f', 'f', 'f', 'f'], v4.chars] := by
        simpa [Joinable] using And.intro (List.ne_nil_of_mem hdot) hcolon
      simpa using pieces_joined hjoinable
    have hlast : group? v4.chars = none := by
      rw [group?, Text.ofHex?, Text.ofDigits?_eq_none hdot (by decide)]
      rfl
    have htail : tail? [['f', 'f', 'f', 'f'], v4.chars] = some [0xffff, a, b] := by
      have hgroup : group? ['f', 'f', 'f', 'f'] = some 0xffff := by decide
      have hv4 : groupsOfV4 v4 = [a, b] := by
        obtain rfl := Option.some.inj h
        simp only [groupsOfV4, ofOctetPair_split]
      simp [tail?, hgroup, hlast, V4.parse?_chars, hv4]
    simp only [hsplit, parse?, hpieces, htail]
    rfl
  · cases h

theorem parse?_chars (ip : V6) : parse? ip.chars = some ip := by
  cases hmap : ip.mappedV4? with
  | some v4 => rw [chars, hmap]; exact parse?_mapped hmap
  | none =>
    obtain ⟨hle, heq⟩ := longestZeros_spec ip.groups
    simp only [chars, hmap]
    split
    · next hgap =>
      have hlen : (ip.groups.take (longestZeros ip.groups).1 ++
          List.replicate (longestZeros ip.groups).2 0 ++
          ip.groups.drop ((longestZeros ip.groups).1 + (longestZeros ip.groups).2)).length = 8 := by
        rw [← heq, ip.length_groups]
      rw [parse?_gap hlen (by omega), Option.some.injEq]
      obtain ⟨groups, hgroups⟩ := ip
      rw [mk.injEq]
      exact heq.symm
    · exact parse?_groupsChars ip

theorem colon_mem_chars (ip : V6) : ':' ∈ ip.chars := by
  have hgroups : ':' ∈ groupsChars ip.groups := by
    match hg : ip.groups, ip.length_groups with
    | g :: h :: rest, _ => simp [groupsChars]
  simp only [chars]
  split
  · simp
  · split
    · simp
    · exact hgroups

section Foreign
variable {c : Char}

theorem group?_eq_none {digits : List Char} (hc : c ∈ digits) (hdigit : Text.hexDigit? c = none) :
    group? digits = none := by
  rw [group?, Text.ofHex?, Text.ofDigits?_eq_none hc hdigit]
  rfl

theorem tail?_eq_none {ps : List (List Char)} {p : List Char} (hp : p ∈ ps) (hc : c ∈ p)
    (hdot : c ≠ '.') (hdigit : Text.hexDigit? c = none) : tail? ps = none := by
  induction ps with
  | nil => simp at hp
  | cons first rest ih =>
    cases rest with
    | nil =>
      obtain rfl := List.mem_singleton.mp hp
      simp [tail?, group?_eq_none hc hdigit,
        V4.parse?_eq_none hc hdot (Text.decimalDigit?_eq_none hdigit)]
    | cons second rest =>
      rw [tail?]
      · rcases List.mem_cons.mp hp with rfl | hp
        · rw [group?_eq_none hc hdigit]; rfl
        · rw [ih hp]
          cases group? first <;> rfl
      · simp

theorem splitGap_eq {cs front back : List Char} (h : splitGap cs = some (front, back)) :
    cs = front ++ [':', ':'] ++ back := by
  induction cs using splitGap.induct generalizing front with
  | case1 => cases h
  | case2 rest =>
    obtain ⟨rfl, rfl⟩ : [] = front ∧ rest = back := by simpa [splitGap] using h
    rfl
  | case3 c rest hc ih =>
    rw [splitGap] at h
    · obtain ⟨⟨head, tail⟩, hrest, heq⟩ := Option.map_eq_some_iff.mp h
      obtain ⟨rfl, rfl⟩ : c :: head = front ∧ tail = back := by simpa using heq
      rw [ih hrest]
      rfl
    · exact hc

theorem mem_pieces {cs : List Char} (hc : c ∈ cs) (hcolon : c ≠ ':') :
    ∃ p ∈ pieces cs, c ∈ p := by
  rw [pieces, if_neg (by simpa using List.ne_nil_of_mem hc)]
  exact Text.mem_splitOn hc hcolon

theorem parse?_eq_none {cs : List Char} (hc : c ∈ cs) (hcolon : c ≠ ':') (hdot : c ≠ '.')
    (hdigit : Text.hexDigit? c = none) : parse? cs = none := by
  rw [parse?]
  split
  · obtain ⟨p, hp, hcp⟩ := mem_pieces hc hcolon
    rw [tail?_eq_none hp hcp hdot hdigit]
    rfl
  · next front back hsplit =>
    rw [splitGap_eq hsplit] at hc
    have hside : c ∈ front ∨ c ∈ back := by simpa [hcolon] using hc
    rcases hside with hside | hside
    · obtain ⟨p, hp, hcp⟩ := mem_pieces hside hcolon
      rw [Text.mapM_eq_none hp (group?_eq_none hcp hdigit)]
      rfl
    · obtain ⟨p, hp, hcp⟩ := mem_pieces hside hcolon
      rw [tail?_eq_none hp hcp hdot hdigit]
      cases (pieces front).mapM group? <;> rfl

end Foreign

end Ip.V6

namespace IpAddr

/-- An IP address reads back from its printed form. -/
@[simp] theorem parse?_text (ip : IpAddr) : parse? ip.text = some ip := by
  rw [parse?, text, String.toList_ofList]
  cases ip with
  | v4 ip => simp only [chars, ofChars?, Ip.V4.parse?_chars]
  | v6 ip =>
    have hv4 : Ip.V4.parse? ip.chars = none :=
      Ip.V4.parse?_eq_none ip.colon_mem_chars (by decide) (by decide)
    simp only [chars, ofChars?, hv4, Ip.V6.parse?_chars, Option.map_some]

@[simp] theorem isIp_text (ip : IpAddr) : isIp ip.text = true := by simp [isIp]

theorem text_injective {a b : IpAddr} (h : a.text = b.text) : a = b :=
  Option.some.inj (by rw [← parse?_text a, h, parse?_text])

/-- Every spelling of an IP address is written with digits, dots and colons. -/
theorem parse?_eq_none {text : String} {c : Char} (hc : c ∈ text.toList) (hcolon : c ≠ ':')
    (hdot : c ≠ '.') (hdigit : Text.hexDigit? c = none) : parse? text = none := by
  rw [parse?, ofChars?, Ip.V4.parse?_eq_none hc hdot (Text.decimalDigit?_eq_none hdigit),
    Ip.V6.parse?_eq_none hc hcolon hdot hdigit]
  rfl

theorem slash_notMem_text (ip : IpAddr) : '/' ∉ ip.text.toList := by
  intro hslash
  have hread := parse?_text ip
  rw [parse?_eq_none hslash (by decide) (by decide) (by decide)] at hread
  cases hread

end IpAddr

namespace LiveAddress
variable {a : LiveAddress} {ip : IpAddr}

/-- Whether an address is bound as a single host. -/
def IsHost (a : LiveAddress) : Prop := a.prefixLen = a.ip.hostPrefix

instance : DecidablePred IsHost := fun a =>
  inferInstanceAs (Decidable (a.prefixLen = a.ip.hostPrefix))

theorem isHost_host (ip : IpAddr) : (host ip).IsHost := rfl

theorem IsHost.eq_host (h : a.IsHost) : a = host a.ip := by
  obtain ⟨ip, prefixLen⟩ := a
  exact congrArg (LiveAddress.mk ip) h

theorem IsHost.text_eq (h : a.IsHost) : a.text = a.ip.text := if_pos h

/-- In the text of any other address a slash stands between its IP and its prefix length. -/
theorem toList_text_of_not_isHost (h : ¬a.IsHost) :
    a.text.toList = a.ip.text.toList ++ '/' :: Nat.toDigits 10 a.prefixLen := by
  have htext : a.text = a.ip.text ++ "/" ++ toString a.prefixLen := if_neg h
  simp [htext]

theorem slash_mem_text_iff : '/' ∈ a.text.toList ↔ ¬a.IsHost := by
  constructor
  · intro hslash h
    rw [h.text_eq] at hslash
    exact a.ip.slash_notMem_text hslash
  · intro h
    simp [toList_text_of_not_isHost h]

/-- A bound address reads back as an IP address exactly if it carries the host prefix. -/
theorem parse?_text : IpAddr.parse? a.text = some ip ↔ a = host ip := by
  by_cases ha : a.IsHost
  · rw [ha.text_eq, IpAddr.parse?_text, Option.some.injEq]
    constructor
    · rintro rfl
      exact ha.eq_host
    · exact congrArg LiveAddress.ip
  · rw [IpAddr.parse?_eq_none (slash_mem_text_iff.mpr ha) (by decide) (by decide) (by decide)]
    constructor
    · intro h; cases h
    · rintro rfl
      exact absurd (isHost_host ip) ha

/-- Only an address with the host prefix looks like an IP address. -/
theorem text_eq_text : a.text = ip.text ↔ a = host ip := by
  constructor
  · intro h
    exact parse?_text.mp (by rw [h, IpAddr.parse?_text])
  · rintro rfl
    exact text_host ip

theorem eq_text_of_parse? (h : IpAddr.parse? a.text = some ip) : a.text = ip.text :=
  text_eq_text.mpr (parse?_text.mp h)

end LiveAddress

/-- Every text that denotes an IP is its printed form. -/
def Printed (texts : List String) : Prop :=
  ∀ t ∈ texts, ∀ ip, IpAddr.parse? t = some ip → t = ip.text

instance (texts : List String) : Decidable (Printed texts) :=
  decidable_of_iff (∀ t ∈ texts, (IpAddr.parse? t).all fun ip => t = ip.text) <| by
    refine forall₂_congr fun t _ => ?_
    cases IpAddr.parse? t <;> simp

def IpAddr.ofTexts (texts : List String) : List IpAddr := texts.filterMap IpAddr.parse?

theorem IpAddr.map_text_ofTexts {texts : List String}
    (h : ∀ t ∈ texts, ∃ ip : IpAddr, t = ip.text) : (ofTexts texts).map IpAddr.text = texts := by
  induction texts with
  | nil => rfl
  | cons t texts ih =>
    obtain ⟨⟨ip, rfl⟩, hrest⟩ := List.forall_mem_cons.mp h
    rw [ofTexts, List.filterMap_cons_some (IpAddr.parse?_text ip), List.map_cons]
    exact congrArg (ip.text :: ·) (ih hrest)

namespace Mac

theorem octetsOfHex?_hexPairs (octets : List UInt8) :
    octetsOfHex? (octets.map Text.hexPair).flatten = some octets := by
  induction octets with
  | nil => rfl
  | cons o octets ih =>
    simp only [List.map_cons, List.flatten_cons, Text.hexPair, List.cons_append, List.nil_append,
      octetsOfHex?, Text.ofHexPair?_digitChar]
    rw [ih]
    rfl

theorem colon_notMem_hexPair (o : UInt8) : ':' ∉ Text.hexPair o := by
  intro h
  have hread : Text.ofHex? (Text.hexPair o) = none := Text.ofDigits?_eq_none h (by decide)
  have hlt : o.toNat < 256 := o.toNat_lt
  simp [Text.hexPair, Text.ofHex?, Text.ofDigits?,
    Text.hexDigit?_digitChar (o.toNat / 16) (by omega),
    Text.hexDigit?_digitChar (o.toNat % 16) (by omega)] at hread

/-- A hardware address reads back from its canonical text. -/
@[simp] theorem parse?_text (mac : Mac) : parse? mac.text = some mac := by
  have hne : mac.octets.map Text.hexPair ≠ [] := by
    intro h
    have hlen := mac.length_octets
    simp [List.map_eq_nil_iff.mp h] at hlen
  have hsplit : ([':'].intercalate (mac.octets.map Text.hexPair)).splitOn ':' =
      mac.octets.map Text.hexPair := by
    refine List.splitOn_intercalate ':' ?_ hne
    intro pair hpair
    obtain ⟨o, -, rfl⟩ := List.mem_map.mp hpair
    exact colon_notMem_hexPair o
  have hcolon : ([':'].intercalate (mac.octets.map Text.hexPair)).contains ':' = true := by
    match ho : mac.octets, mac.length_octets with
    | a :: b :: rest, _ => simp
  have hgrouped : wellGrouped false (mac.octets.map Text.hexPair) = true := by
    simp [wellGrouped, mac.length_octets, Text.hexPair]
  rw [parse?, text, String.toList_ofList]
  simp only [hcolon, if_true, ofGroups?, hsplit, hgrouped, octetsOfHex?_hexPairs]
  simp [ofOctets?, mac.length_octets]

/-- No two hardware addresses share a canonical text. -/
theorem text_injective {a b : Mac} (h : a.text = b.text) : a = b :=
  Option.some.inj (by rw [← parse?_text a, h, parse?_text])

end Mac

end ForwardedIp
