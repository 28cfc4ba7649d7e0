import ForwardedIp.Proofs.PrintedForms
/-!
# The grammar of hardware addresses

A text is read as a hardware address exactly if it spells one: six groups of two hexadecimal digits
joined by colons, hyphens or dots, or three groups of four joined by dots. What it stands for is
told by its digits alone, whatever their case, and one spelling of each address is canonical.
-/
namespace ForwardedIp

namespace Text
variable {c high low : Char} {n : Nat} {b : UInt8} {cs : List Char}

/-- The hexadecimal digits, in both cases. -/
def hexDigits : List Char := "0123456789abcdefABCDEF".toList

theorem toNat_of_hexDigit? (h : hexDigit? c = some n) : c.toNat < 128 := by
  have hle : ∀ last : Char, c ≤ last → c.toNat ≤ last.toNat := fun last hc => hc
  have hlast : '9'.toNat < 128 ∧ 'f'.toNat < 128 ∧ 'F'.toNat < 128 := by decide
  rw [hexDigit?] at h
  split at h
  · next hc => exact Nat.lt_of_le_of_lt (hle _ hc.2) hlast.1
  · split at h
    · next hc => exact Nat.lt_of_le_of_lt (hle _ hc.2) hlast.2.1
    · split at h
      · next hc => exact Nat.lt_of_le_of_lt (hle _ hc.2) hlast.2.2
      · cases h

/-- A digit is worth the number below sixteen that its lower case prints. -/
theorem eq_some_of_hexDigit? (h : hexDigit? c = some n) :
    c ∈ hexDigits ∧ n < 16 ∧ Nat.digitChar n = c.toLower := by
  have hall : ∀ k, k < 128 → (hexDigit? (Char.ofNat k)).all (fun n =>
      Char.ofNat k ∈ hexDigits ∧ n < 16 ∧ Nat.digitChar n = (Char.ofNat k).toLower) = true := by
    decide +kernel
  have hc := hall c.toNat (toNat_of_hexDigit? h)
  rw [Char.ofNat_toNat, h] at hc
  simpa using hc

theorem exists_hexDigit? (h : c ∈ hexDigits) : ∃ n, hexDigit? c = some n := by
  have hall : hexDigits.all (fun c => (hexDigit? c).isSome) = true := by decide
  exact Option.isSome_iff_exists.mp (List.all_eq_true.mp hall c h)

/-- A byte is printed as the two digits that it is read from, in lower case. -/
theorem hexPair_of_ofHexPair? (h : ofHexPair? high low = some b) :
    (high ∈ hexDigits ∧ low ∈ hexDigits) ∧ hexPair b = [high.toLower, low.toLower] := by
  cases hm : hexDigit? high with
  | none => simp [ofHexPair?, hm] at h
  | some m =>
    cases hn : hexDigit? low with
    | none => simp [ofHexPair?, hm, hn] at h
    | some n =>
      obtain ⟨hhigh, hm16, hmlower⟩ := eq_some_of_hexDigit? hm
      obtain ⟨hlow, hn16, hnlower⟩ := eq_some_of_hexDigit? hn
      have hb : UInt8.ofNat (16 * m + n) = b := by simpa [ofHexPair?, hm, hn] using h
      have hvalue : b.toNat = 16 * m + n := by
        rw [← hb, UInt8.toNat_ofNat']
        omega
      have hdiv : b.toNat / 16 = m := by omega
      have hmod : b.toNat % 16 = n := by omega
      rw [hexPair, hdiv, hmod, hmlower, hnlower]
      exact ⟨⟨hhigh, hlow⟩, rfl⟩

theorem exists_ofHexPair? (hhigh : high ∈ hexDigits) (hlow : low ∈ hexDigits) :
    ∃ b, ofHexPair? high low = some b := by
  obtain ⟨m, hm⟩ := exists_hexDigit? hhigh
  obtain ⟨n, hn⟩ := exists_hexDigit? hlow
  exact ⟨UInt8.ofNat (16 * m + n), by simp [ofHexPair?, hm, hn]⟩

theorem length_flatten_of_length {gs : List (List Char)} (h : ∀ g ∈ gs, g.length = n) :
    gs.flatten.length = gs.length * n := by
  induction gs with
  | nil => simp
  | cons g gs ih =>
    obtain ⟨hg, hgs⟩ := List.forall_mem_cons.mp h
    rw [List.flatten_cons, List.length_append, hg, ih hgs, List.length_cons, Nat.succ_mul,
      Nat.add_comm]

end Text

open Text

namespace Mac
variable {s : String} {mac : Mac} {digits : List Char} {octets : List UInt8}

/-- Octets are printed as the digits that they are read from, in lower case. -/
theorem hexPairs_of_octetsOfHex? (h : octetsOfHex? digits = some octets) :
    (∀ c ∈ digits, c ∈ hexDigits) ∧ (octets.map hexPair).flatten = digits.map Char.toLower := by
  induction digits using octetsOfHex?.induct generalizing octets with
  | case1 =>
    obtain rfl : [] = octets := by simpa [octetsOfHex?] using h
    simp
  | case2 c => simp [octetsOfHex?] at h
  | case3 high low rest ih =>
    cases hb : ofHexPair? high low with
    | none => simp [octetsOfHex?, hb] at h
    | some b =>
      cases hrest : octetsOfHex? rest with
      | none => simp [octetsOfHex?, hb, hrest] at h
      | some others =>
        obtain rfl : b :: others = octets := by simpa [octetsOfHex?, hb, hrest] using h
        obtain ⟨⟨hhigh, hlow⟩, hpair⟩ := hexPair_of_ofHexPair? hb
        obtain ⟨hdigits, hflat⟩ := ih hrest
        refine ⟨List.forall_mem_cons.mpr ⟨hhigh, List.forall_mem_cons.mpr ⟨hlow, hdigits⟩⟩, ?_⟩
        rw [List.map_cons, List.flatten_cons, hpair, hflat]
        rfl

theorem exists_octetsOfHex? {n : Nat} (hlen : digits.length = 2 * n)
    (hdigits : ∀ c ∈ digits, c ∈ hexDigits) :
    ∃ octets, octetsOfHex? digits = some octets ∧ octets.length = n := by
  induction digits using octetsOfHex?.induct generalizing n with
  | case1 =>
    rw [List.length_nil] at hlen
    exact ⟨[], rfl, by rw [List.length_nil]; omega⟩
  | case2 c =>
    rw [List.length_singleton] at hlen
    omega
  | case3 high low rest ih =>
    obtain ⟨hhigh, hrest⟩ := List.forall_mem_cons.mp hdigits
    obtain ⟨hlow, hrest⟩ := List.forall_mem_cons.mp hrest
    obtain ⟨b, hb⟩ := exists_ofHexPair? hhigh hlow
    rw [List.length_cons, List.length_cons] at hlen
    obtain ⟨others, hothers, hcount⟩ := ih (n := n - 1) (by omega) hrest
    refine ⟨b :: others, by simp [octetsOfHex?, hb, hothers], ?_⟩
    rw [List.length_cons]
    omega

theorem filter_intercalate {sep : Char} (hsep : sep ∉ hexDigits) {gs : List (List Char)}
    (hgs : ∀ g ∈ gs, ∀ c ∈ g, c ∈ hexDigits) :
    ([sep].intercalate gs).filter (hexDigits.contains ·) = gs.flatten := by
  have hkept : ∀ g : List Char, (∀ c ∈ g, c ∈ hexDigits) →
      g.filter (hexDigits.contains ·) = g := fun g hg =>
    List.filter_eq_self.mpr fun c hc => List.contains_iff_mem.mpr (hg c hc)
  have hdropped : [sep].filter (hexDigits.contains ·) = [] := by simp [hsep]
  induction gs with
  | nil => simp
  | cons g gs ih =>
    obtain ⟨hg, hrest⟩ := List.forall_mem_cons.mp hgs
    cases gs with
    | nil => simpa using hg
    | cons g' gs =>
      rw [List.intercalate_cons_cons, List.filter_append, List.filter_append, hkept g hg,
        hdropped, ih hrest, List.append_nil, ← List.flatten_cons]

/-- A way to write an address: its digits in groups, and what joins them. -/
structure Spelling where
  separator : Char
  groups : List (List Char)
  hex : ∀ g ∈ groups, ∀ c ∈ g, c ∈ hexDigits
  grouped : (separator ∈ [':', '-', '.'] ∧ groups.length = 6 ∧ ∀ g ∈ groups, g.length = 2) ∨
    (separator = '.' ∧ groups.length = 3 ∧ ∀ g ∈ groups, g.length = 4)

/-- The digits of a text in order, in lower case. -/
def digitsOf (s : String) : List Char := (s.toList.filter (hexDigits.contains ·)).map Char.toLower

namespace Spelling
variable {x : Spelling}

def text (x : Spelling) : String := String.ofList ([x.separator].intercalate x.groups)

/-- Colons between pairs of digits without capital letters. -/
def Canonical (x : Spelling) : Prop :=
  x.separator = ':' ∧ ∀ g ∈ x.groups, ∀ c ∈ g, c.toLower = c

theorem separator_mem (x : Spelling) : x.separator ∈ [':', '-', '.'] := by
  rcases x.grouped with ⟨h, -⟩ | ⟨h, -⟩
  · exact h
  · simp [h]

theorem separator_notMem (x : Spelling) : x.separator ∉ hexDigits := by
  have hnone : [':', '-', '.'].all (fun c => !hexDigits.contains c) = true := by decide
  simpa using List.all_eq_true.mp hnone _ x.separator_mem

theorem length_digits (x : Spelling) : x.groups.flatten.length = 12 := by
  rcases x.grouped with ⟨-, hcount, hlen⟩ | ⟨-, hcount, hlen⟩
  · rw [length_flatten_of_length hlen, hcount]
  · rw [length_flatten_of_length hlen, hcount]

theorem splitOn_text (x : Spelling) : x.text.toList.splitOn x.separator = x.groups := by
  rw [text, String.toList_ofList]
  refine List.splitOn_intercalate _ (fun g hg hmem => x.separator_notMem (x.hex g hg _ hmem)) ?_
  intro hnil
  rcases x.grouped with ⟨-, hcount, -⟩ | ⟨-, hcount, -⟩ <;> simp [hnil] at hcount

theorem mem_text (x : Spelling) {c : Char} (hc : c ∈ x.text.toList) (hne : c ≠ x.separator) :
    c ∈ hexDigits := by
  obtain ⟨g, hg, hmem⟩ := Text.mem_splitOn hc hne
  rw [x.splitOn_text] at hg
  exact x.hex g hg c hmem

theorem separator_mem_text (x : Spelling) : x.separator ∈ x.text.toList := by
  rw [text, String.toList_ofList]
  match hg : x.groups with
  | a :: b :: rest => simp
  | [_] | [] =>
    rcases x.grouped with ⟨-, hcount, -⟩ | ⟨-, hcount, -⟩ <;> simp [hg] at hcount

/-- The digits of a spelling are what is left of it without separators. -/
theorem digitsOf_text (x : Spelling) : digitsOf x.text = x.groups.flatten.map Char.toLower := by
  rw [digitsOf, text, String.toList_ofList, filter_intercalate x.separator_notMem x.hex]

/-- What is read from the groups of a spelling, where groups of four are allowed with dots. -/
theorem exists_ofGroups? (x : Spelling) {quads : Bool} (hquads : x.separator = '.' → quads = true) :
    ∃ mac, ofGroups? quads x.groups = some mac := by
  have hgrouped : wellGrouped quads x.groups = true := by
    rcases x.grouped with ⟨-, hcount, hlen⟩ | ⟨hdot, hcount, hlen⟩
    · simpa [wellGrouped, hcount] using hlen
    · simpa [wellGrouped, hcount, hquads hdot] using hlen
  have hhex : ∀ c ∈ x.groups.flatten, c ∈ hexDigits := by
    intro c hc
    obtain ⟨g, hg, hmem⟩ := List.mem_flatten.mp hc
    exact x.hex g hg c hmem
  obtain ⟨octets, hoctets, hcount⟩ := exists_octetsOfHex? (n := 6) x.length_digits hhex
  refine ⟨⟨octets, hcount⟩, ?_⟩
  rw [ofGroups?, if_pos hgrouped, hoctets]
  exact dif_pos hcount

/-- Every spelling is read. -/
theorem exists_parse? (x : Spelling) : ∃ mac, parse? x.text = some mac := by
  have hcontains : ∀ c, c ∉ hexDigits → (x.text.toList.contains c = true ↔ c = x.separator) := by
    intro c hc
    rw [List.contains_iff_mem]
    constructor
    · intro hmem
      by_cases heq : c = x.separator
      · exact heq
      · exact absurd (x.mem_text hmem heq) hc
    · rintro rfl
      exact x.separator_mem_text
  have hcolon := hcontains ':' (by decide)
  have hhyphen := hcontains '-' (by decide)
  have hdot := hcontains '.' (by decide)
  have hsplit := x.splitOn_text
  simp only [parse?, hcolon, hhyphen, hdot]
  split
  · next heq =>
    rw [heq, hsplit]
    exact x.exists_ofGroups? fun hdot => absurd (heq.trans hdot) (by decide)
  · split
    · next heq =>
      rw [heq, hsplit]
      exact x.exists_ofGroups? fun hdot => absurd (heq.trans hdot) (by decide)
    · next hne hne' =>
      have hsep : '.' = x.separator := by
        have hmem := x.separator_mem
        simp only [List.mem_cons, List.not_mem_nil, or_false] at hmem
        rcases hmem with h | h | h
        · exact absurd h.symm hne
        · exact absurd h.symm hne'
        · exact h.symm
      rw [if_pos hsep, hsep, hsplit]
      exact x.exists_ofGroups? fun _ => rfl

end Spelling

/-- What is read from the groups of a text is read from a spelling. -/
theorem exists_spelling {sep : Char} {quads : Bool} (hsep : sep ∈ [':', '-', '.'])
    (hquads : quads = true → sep = '.')
    (h : ofGroups? quads (s.toList.splitOn sep) = some mac) : ∃ x : Spelling, x.text = s ∧
      (mac.octets.map hexPair).flatten = x.groups.flatten.map Char.toLower := by
  rw [ofGroups?] at h
  split at h
  · next hgrouped =>
    obtain ⟨octets, hoctets, hmac⟩ := Option.bind_eq_some_iff.mp h
    obtain ⟨hhex, hflat⟩ := hexPairs_of_octetsOfHex? hoctets
    have hmac : octets = mac.octets := by
      rw [ofOctets?] at hmac
      split at hmac
      · rw [← Option.some.inj hmac]
      · cases hmac
    refine ⟨⟨sep, s.toList.splitOn sep, fun g hg c hc => hhex c (List.mem_flatten.mpr ⟨g, hg, hc⟩),
      ?_⟩, ?_, hmac ▸ hflat⟩
    · simp only [wellGrouped, Bool.or_eq_true, Bool.and_eq_true, beq_iff_eq, List.all_eq_true]
        at hgrouped
      rcases hgrouped with ⟨hcount, hlen⟩ | ⟨⟨hquad, hcount⟩, hlen⟩
      · exact .inl ⟨hsep, hcount, hlen⟩
      · exact .inr ⟨hquads hquad, hcount, hlen⟩
    · rw [Spelling.text, List.intercalate_splitOn, String.ofList_toList]
  · cases h

theorem exists_spelling_of_parse? (h : parse? s = some mac) : ∃ x : Spelling, x.text = s ∧
    (mac.octets.map hexPair).flatten = x.groups.flatten.map Char.toLower := by
  simp only [parse?] at h
  split at h
  · exact exists_spelling (by simp) (by simp) h
  · split at h
    · exact exists_spelling (by simp) (by simp) h
    · split at h
      · exact exists_spelling (by simp) (by simp) h
      · cases h

/-- An address prints the digits that it is read from. -/
theorem digitsOf_of_parse? (h : parse? s = some mac) :
    digitsOf s = (mac.octets.map hexPair).flatten := by
  obtain ⟨x, rfl, hdigits⟩ := exists_spelling_of_parse? h
  rw [x.digitsOf_text, hdigits]

/-- Addresses that print the same digits are the same. -/
theorem eq_of_hexPairs {a b : Mac}
    (h : (a.octets.map hexPair).flatten = (b.octets.map hexPair).flatten) : a = b := by
  have hoctets := octetsOfHex?_hexPairs a.octets
  rw [h, octetsOfHex?_hexPairs, Option.some.injEq] at hoctets
  cases a
  cases b
  rw [Mac.mk.injEq]
  exact hoctets.symm

theorem hexPairs_lower (octets : List UInt8) :
    ∀ g ∈ octets.map hexPair, ∀ c ∈ g, c ∈ hexDigits ∧ c.toLower = c := by
  obtain ⟨hhex, hlower⟩ := hexPairs_of_octetsOfHex? (octetsOfHex?_hexPairs octets)
  have hkept := List.map_inj_left.mp ((List.map_id _).trans hlower)
  intro g hg c hc
  have hmem := List.mem_flatten.mpr ⟨g, hg, hc⟩
  exact ⟨hhex c hmem, (hkept c hmem).symm⟩

/-- The spelling in which an address is printed. -/
def canonical (mac : Mac) : Spelling where
  separator := ':'
  groups := mac.octets.map hexPair
  hex g hg c hc := (hexPairs_lower mac.octets g hg c hc).1
  grouped := .inl ⟨by simp, by simp [mac.length_octets], by simp [hexPair]⟩

theorem text_canonical (mac : Mac) : mac.canonical.text = mac.text := rfl

theorem canonical_canonical (mac : Mac) : mac.canonical.Canonical :=
  ⟨rfl, fun g hg c hc => (hexPairs_lower mac.octets g hg c hc).2⟩

/-- No other canonical spelling is read as the address. -/
theorem Spelling.Canonical.text_eq {x : Spelling} (hx : x.Canonical)
    (h : parse? x.text = some mac) : x.text = mac.text := by
  obtain ⟨hsep, hlower⟩ := hx
  have hflat : x.groups.flatten = (mac.octets.map hexPair).flatten := by
    rw [← digitsOf_of_parse? h, x.digitsOf_text]
    refine (List.map_id _).symm.trans (List.map_inj_left.mpr fun c hc => ?_)
    obtain ⟨g, hg, hmem⟩ := List.mem_flatten.mp hc
    exact (hlower g hg c hmem).symm
  have hlengths : x.groups.map List.length = (mac.octets.map hexPair).map List.length := by
    rcases x.grouped with ⟨-, hcount, hlen⟩ | ⟨hdot, -⟩
    · have hpairs : x.groups.map List.length = List.replicate 6 2 :=
        List.eq_replicate_iff.mpr ⟨by simpa using hcount, by simpa using hlen⟩
      rw [hpairs]
      exact (List.eq_replicate_iff.mpr ⟨by simp [mac.length_octets], by simp [hexPair]⟩).symm
    · rw [hsep] at hdot
      cases hdot
  rw [Spelling.text, hsep, List.eq_iff_flatten_eq.mpr ⟨hflat, hlengths⟩]
  rfl

theorem parse_eq_ok_iff : parse s = .ok mac ↔ parse? s = some mac := by
  rw [parse]
  cases parse? s with
  | none => simp
  | some other => simp

/-- The texts that are read as addresses are the spellings. Two of them stand for one address
exactly if their digits in order are the same but for case. An address is read back from its text,
which is its one canonical spelling. -/
theorem grammar_exact :
    (∀ s, (∃ mac, parse s = .ok mac) ↔ ∃ x : Spelling, x.text = s) ∧
    (∀ s t a b, parse s = .ok a → parse t = .ok b → (a = b ↔ digitsOf s = digitsOf t)) ∧
    (∀ mac, parse mac.text = .ok mac) ∧
    (∀ mac s, s = mac.text ↔ parse s = .ok mac ∧ ∃ x : Spelling, x.Canonical ∧ x.text = s) ∧
    ∀ a b : Mac, a.text = b.text → a = b := by
  simp only [parse_eq_ok_iff]
  refine ⟨fun s => ⟨?_, ?_⟩, fun s t a b ha hb => ⟨?_, fun h => ?_⟩, parse?_text,
    fun mac s => ⟨?_, ?_⟩, fun a b => text_injective⟩
  · rintro ⟨mac, h⟩
    obtain ⟨x, hx, -⟩ := exists_spelling_of_parse? h
    exact ⟨x, hx⟩
  · rintro ⟨x, rfl⟩
    exact x.exists_parse?
  · rintro rfl
    rw [digitsOf_of_parse? ha, digitsOf_of_parse? hb]
  · rw [digitsOf_of_parse? ha, digitsOf_of_parse? hb] at h
    exact eq_of_hexPairs h
  · rintro rfl
    exact ⟨parse?_text mac, mac.canonical, mac.canonical_canonical, mac.text_canonical⟩
  · rintro ⟨h, x, hx, rfl⟩
    exact hx.text_eq h

/-- An address, its dotted text and its text with hyphens have the same digits. -/
def gateway : Mac := ⟨[0x42, 0x01, 0x0a, 0x80, 0x00, 0x02], rfl⟩

theorem gateway_digits : parse "4201.0A80.0002" = .ok gateway ∧
    parse "42-01-0a-80-00-02" = .ok gateway ∧
    digitsOf "4201.0A80.0002" = digitsOf "42-01-0a-80-00-02" := by
  have hdotted : parse "4201.0A80.0002" = .ok gateway := parse_eq_ok_iff.mpr (by decide +kernel)
  have hhyphens : parse "42-01-0a-80-00-02" = .ok gateway :=
    parse_eq_ok_iff.mpr (by decide +kernel)
  exact ⟨hdotted, hhyphens, (grammar_exact.2.1 _ _ _ _ hdotted hhyphens).mp rfl⟩

end Mac

end ForwardedIp
