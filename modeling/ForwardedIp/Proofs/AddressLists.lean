import ForwardedIp.AddressList
import ForwardedIp.Proofs.FirstPlaces
import ForwardedIp.Proofs.PrintedForms
/-!
# Address lists are normalized

What is read from a list of addresses is the addresses among its pieces, each spelling once, in the
order of first places. It may be written down again with any blanks around the addresses and with
idle pieces between them, and is read as it was.
-/
namespace ForwardedIp

namespace Text
variable {front core back cs : List Char} {c : Char}

def Blanks (cs : List Char) : Prop := ∀ c ∈ cs, isBlank c = true

instance (cs : List Char) : Decidable (Blanks cs) :=
  decidable_of_iff (cs.all isBlank = true) List.all_eq_true

theorem trimStart_append (h : Blanks front) (cs : List Char) :
    trimStart (front ++ cs) = trimStart cs := List.dropWhile_append_of_pos h

theorem trimEnd_append (h : Blanks back) (cs : List Char) :
    trimEnd (cs ++ back) = trimEnd cs := by
  have hreverse : ∀ c ∈ back.reverse, isBlank c = true := fun c hc => h c (List.mem_reverse.mp hc)
  rw [trimEnd, List.reverse_append, List.dropWhile_append_of_pos hreverse, trimEnd]

theorem dropWhile_of_plain (h : ∀ c ∈ core, isBlank c = false) :
    core.dropWhile isBlank = core := by
  cases core with
  | nil => rfl
  | cons c core => exact trimStart_cons (h c List.mem_cons_self)

/-- Blanks around a text without blanks are dropped. -/
theorem trim_surrounded (hfront : Blanks front) (hback : Blanks back)
    (hcore : ∀ c ∈ core, isBlank c = false) : trim (front ++ core ++ back) = core := by
  have hreverse : ∀ c ∈ core.reverse, isBlank c = false := fun c hc =>
    hcore c (List.mem_reverse.mp hc)
  have hstart : trimEnd (trimStart (core ++ back)) = trimEnd (core ++ back) := by
    cases core with
    | nil =>
      have hnone : trimStart back = [] := by
        rw [← List.append_nil back, trimStart_append hback]
        rfl
      rw [List.nil_append, hnone, ← List.nil_append back, trimEnd_append hback]
    | cons c core => rw [List.cons_append, trimStart_cons (hcore c List.mem_cons_self)]
  rw [trim, List.append_assoc, trimStart_append hfront, hstart, trimEnd_append hback, trimEnd,
    dropWhile_of_plain hreverse, List.reverse_reverse]

theorem blanks_takeWhile (cs : List Char) : Blanks (cs.takeWhile isBlank) :=
  List.all_eq_true.mp List.all_takeWhile

/-- Trimming takes off blanks and nothing else. -/
theorem exists_surrounding (cs : List Char) :
    ∃ front back, Blanks front ∧ Blanks back ∧ cs = front ++ trim cs ++ back := by
  refine ⟨cs.takeWhile isBlank, ((trimStart cs).reverse.takeWhile isBlank).reverse,
    blanks_takeWhile cs, ?_, ?_⟩
  · intro c hc
    exact blanks_takeWhile _ c (List.mem_reverse.mp hc)
  · rw [List.append_assoc, trim, trimEnd, ← List.reverse_append, List.takeWhile_append_dropWhile,
      List.reverse_reverse, trimStart, List.takeWhile_append_dropWhile]

/-- What stands between separators has none of its own. -/
theorem notMem_of_mem_splitOn {piece : List Char} (h : piece ∈ cs.splitOn c) : c ∉ piece := by
  rw [List.splitOn_eq_splitOnP] at h
  induction cs generalizing piece with
  | nil =>
    obtain rfl := List.mem_singleton.mp h
    exact List.not_mem_nil
  | cons d cs ih =>
    obtain ⟨first, rest, hsplit⟩ :=
      List.exists_cons_of_ne_nil (List.splitOnP_ne_nil (· == c) cs)
    rw [List.splitOnP_cons_eq_if_modifyHead, hsplit] at h
    rw [hsplit] at ih
    split at h
    · rcases List.mem_cons.mp h with rfl | h
      · exact List.not_mem_nil
      · exact ih h
    · next hd =>
      rw [List.modifyHead_cons] at h
      rcases List.mem_cons.mp h with rfl | h
      · have hne : c ≠ d := fun heq => hd (by simp [heq])
        simp [hne, ih List.mem_cons_self]
      · exact ih (List.mem_cons_of_mem _ h)

/-- No blank is a digit. -/
theorem hexDigit?_of_isBlank (h : isBlank c = true) : hexDigit? c = none := by
  simp only [isBlank, Bool.or_eq_true, Bool.and_eq_true, decide_eq_true_eq, beq_iff_eq] at h
  have hzero : '0'.toNat = 48 ∧ '9'.toNat = 57 := by decide
  have hsmall : 'a'.toNat = 97 ∧ 'f'.toNat = 102 := by decide
  have hcapital : 'A'.toNat = 65 ∧ 'F'.toNat = 70 := by decide
  have hout : ∀ low high : Char, c.toNat < low.toNat ∨ high.toNat < c.toNat →
      ¬ (low ≤ c ∧ c ≤ high) := by
    rintro low high hout ⟨hlow, hhigh⟩
    have hlow : low.toNat ≤ c.toNat := hlow
    have hhigh : c.toNat ≤ high.toNat := hhigh
    omega
  rw [hexDigit?, if_neg (hout '0' '9' (by omega)), if_neg (hout 'a' 'f' (by omega)),
    if_neg (hout 'A' 'F' (by omega))]

end Text

open Text

namespace IpAddr
variable {t : String} {c : Char}

/-- No spelling of an address has a blank or a comma in it. -/
theorem plain_of_isIp (h : isIp t = true) (hc : c ∈ t.toList) : isBlank c = false ∧ c ≠ ',' := by
  have hforeign : ¬ (c ≠ ':' ∧ c ≠ '.' ∧ hexDigit? c = none) := by
    rintro ⟨hcolon, hdot, hdigit⟩
    rw [isIp, parse?_eq_none hc hcolon hdot hdigit] at h
    cases h
  constructor
  · by_contra hblank
    rw [Bool.not_eq_false] at hblank
    refine hforeign ⟨?_, ?_, hexDigit?_of_isBlank hblank⟩ <;> (rintro rfl; cases hblank)
  · rintro rfl
    exact hforeign (by decide)

end IpAddr

namespace AddressList
variable {raw t : String} {p : List Char} {ps : List (List Char)} {ts : List String}

/-- Pieces with commas between them. -/
def join (ps : List (List Char)) : String := String.ofList ([','].intercalate ps)

/-- The pieces of a list: joined by commas they are the list, and none has a comma of its own. -/
structure PiecesOf (raw : String) (ps : List (List Char)) : Prop where
  joined : join ps = raw
  ne_nil : ps ≠ []
  plain : ∀ p ∈ ps, ',' ∉ p

/-- A piece holds a text between blanks. -/
def Holds (p : List Char) (t : String) : Prop :=
  ∃ front back, Blanks front ∧ Blanks back ∧ p = front ++ t.toList ++ back

/-- A piece counts for nothing: there are only blanks in it, or what it holds is no address. -/
def Idle (p : List Char) : Prop :=
  ',' ∉ p ∧ (trim p = [] ∨ IpAddr.parse? (String.ofList (trim p)) = none)

instance (p : List Char) : Decidable (Idle p) := inferInstanceAs (Decidable (_ ∧ _))

/-- Pieces that hold some addresses in order, with idle pieces anywhere among them. -/
inductive Writes : List (List Char) → List String → Prop where
  | nil : Writes [] []
  | address {p : List Char} {t : String} {ps : List (List Char)} {ts : List String} :
      Holds p t → Writes ps ts → Writes (p :: ps) (t :: ts)
  | idle {p : List Char} {ps : List (List Char)} {ts : List String} :
      Idle p → Writes ps ts → Writes (p :: ps) ts

theorem piecesOf_splitOn (raw : String) : PiecesOf raw (raw.toList.splitOn ',') where
  joined := by rw [join, List.intercalate_splitOn, String.ofList_toList]
  ne_nil := List.splitOn_ne_nil _ _
  plain _ hp := notMem_of_mem_splitOn hp

theorem PiecesOf.entries_eq (h : PiecesOf raw ps) :
    entries raw = ps.map fun p => String.ofList (trim p) := by
  have hsplit : raw.toList.splitOn ',' = ps := by
    rw [← h.joined, join, String.toList_ofList]
    exact List.splitOn_intercalate ',' h.plain h.ne_nil
  rw [entries, hsplit]

theorem holds_iff (ht : IpAddr.isIp t = true) : Holds p t ↔ String.ofList (trim p) = t := by
  constructor
  · rintro ⟨front, back, hfront, hback, rfl⟩
    rw [trim_surrounded hfront hback fun c hc => (IpAddr.plain_of_isIp ht hc).1,
      String.ofList_toList]
  · rintro rfl
    obtain ⟨front, back, hfront, hback, hp⟩ := exists_surrounding p
    exact ⟨front, back, hfront, hback, by rwa [String.toList_ofList]⟩

theorem mem_parse : t ∈ parse raw ↔ t ∈ entries raw ∧ IpAddr.isIp t = true := by
  rw [parse, List.mem_eraseDups, List.mem_filter]

theorem PiecesOf.mem_parse_iff (h : PiecesOf raw ps) (ht : IpAddr.isIp t = true) :
    t ∈ parse raw ↔ ∃ p ∈ ps, Holds p t := by
  rw [mem_parse, and_iff_left ht, h.entries_eq, List.mem_map]
  exact exists_congr fun p => and_congr_right fun _ => (holds_iff ht).symm

theorem comma_notMem_of_holds (ht : IpAddr.isIp t = true) (h : Holds p t) : ',' ∉ p := by
  obtain ⟨front, back, hfront, hback, rfl⟩ := h
  have hcomma : isBlank ',' ≠ true := by decide
  rw [List.mem_append, List.mem_append]
  rintro ((hmem | hmem) | hmem)
  · exact hcomma (hfront _ hmem)
  · exact (IpAddr.plain_of_isIp ht hmem).2 rfl
  · exact hcomma (hback _ hmem)

theorem not_isIp_of_idle (h : Idle p) : IpAddr.isIp (String.ofList (trim p)) = false := by
  rcases h.2 with hnone | hnone
  · rw [hnone]
    decide
  · rw [IpAddr.isIp, hnone]
    rfl

namespace Writes

theorem plain (h : Writes ps ts) (hts : ∀ t ∈ ts, IpAddr.isIp t = true) :
    ∀ p ∈ ps, ',' ∉ p := by
  induction h with
  | nil => simp
  | address hp _ ih =>
    obtain ⟨ht, hts⟩ := List.forall_mem_cons.mp hts
    exact List.forall_mem_cons.mpr ⟨comma_notMem_of_holds ht hp, ih hts⟩
  | idle hp _ ih => exact List.forall_mem_cons.mpr ⟨hp.1, ih hts⟩

/-- What the pieces hold is found in them, and nothing else. -/
theorem filter_eq (h : Writes ps ts) (hts : ∀ t ∈ ts, IpAddr.isIp t = true) :
    (ps.map fun p => String.ofList (trim p)).filter IpAddr.isIp = ts := by
  induction h with
  | nil => rfl
  | address hp _ ih =>
    obtain ⟨ht, hts⟩ := List.forall_mem_cons.mp hts
    rw [List.map_cons, (holds_iff ht).mp hp, List.filter_cons_of_pos ht, ih hts]
  | idle hp _ ih =>
    rw [List.map_cons, List.filter_cons_of_neg (by simp [not_isIp_of_idle hp]), ih hts]

theorem parse_join (h : Writes ps ts) (hts : ∀ t ∈ ts, IpAddr.isIp t = true) :
    parse (join ps) = ts.eraseDups := by
  cases ps with
  | nil =>
    cases h
    decide
  | cons p rest =>
    have hpieces : PiecesOf (join (p :: rest)) (p :: rest) :=
      ⟨rfl, List.cons_ne_nil p rest, h.plain hts⟩
    rw [parse, hpieces.entries_eq, h.filter_eq hts]

end Writes

/-- A list is read as the addresses that its pieces hold between blanks, each spelling once and in
the order of first places. Written down again in any way, it is read as the same. -/
theorem parse_normal (raw : String) :
    (parse raw).Nodup ∧ (∀ t ∈ parse raw, ∃ ip, IpAddr.parse? t = some ip) ∧
    (∃ ps, PiecesOf raw ps ∧
      (∀ t ip, IpAddr.parse? t = some ip → (t ∈ parse raw ↔ ∃ p ∈ ps, Holds p t)) ∧
      FirstsOf (ps.map fun p => String.ofList (trim p)) (fun t => IpAddr.isIp t = true)
        (parse raw)) ∧
    ∀ ps, Writes ps (parse raw) → parse (join ps) = parse raw := by
  have hips : ∀ t ∈ parse raw, IpAddr.isIp t = true := fun t ht => (mem_parse.mp ht).2
  have hpieces := piecesOf_splitOn raw
  have hnodup : (parse raw).Nodup := nodup_eraseDups _
  refine ⟨hnodup, fun t ht => Option.isSome_iff_exists.mp (hips t ht), ⟨_, hpieces, ?_, ?_⟩, ?_⟩
  · intro t ip ht
    exact hpieces.mem_parse_iff (by rw [IpAddr.isIp, ht]; rfl)
  · rw [← hpieces.entries_eq]
    exact firstsOf_filter IpAddr.isIp (entries raw)
  · intro ps h
    rw [h.parse_join hips, eraseDups_of_nodup hnodup]

/-- A list of two addresses, one of them given twice. -/
def clusterList : String := " 10.0.0.10, ,bogus,10.0.0.11,10.0.0.10 "

/-- The same addresses with other blanks and with other pieces between them. -/
def rewrittenPieces : List (List Char) :=
  ["\u00a010.0.0.10 ".toList, [], "10.0.0.300".toList, "10.0.0.11\t".toList]

theorem rewritten_reread :
    IpAddr.parse? "10.0.0.11" = some (.v4 ⟨[10, 0, 0, 11], rfl⟩) ∧
    (∃ ps, PiecesOf clusterList ps ∧ ∃ p ∈ ps, Holds p "10.0.0.11") ∧
    Writes rewrittenPieces ["10.0.0.10", "10.0.0.11"] ∧
    parse (join rewrittenPieces) = ["10.0.0.10", "10.0.0.11"] := by
  obtain ⟨-, -, ⟨ps, hps, hmem, -⟩, hagain⟩ := parse_normal clusterList
  have hlist : parse clusterList = ["10.0.0.10", "10.0.0.11"] := by decide +kernel
  have hip : IpAddr.parse? "10.0.0.11" = some (.v4 ⟨[10, 0, 0, 11], rfl⟩) := by decide +kernel
  have hwrites : Writes rewrittenPieces ["10.0.0.10", "10.0.0.11"] := by
    have hfirst : Holds "\u00a010.0.0.10 ".toList "10.0.0.10" :=
      ⟨['\u00a0'], [' '], by decide, by decide, by decide +kernel⟩
    have hsecond : Holds "10.0.0.11\t".toList "10.0.0.11" :=
      ⟨[], ['\t'], by decide, by decide, by decide +kernel⟩
    exact .address hfirst (.idle (by decide +kernel) (.idle (by decide +kernel)
      (.address hsecond .nil)))
  rw [hlist] at hmem hagain
  exact ⟨hip, ⟨ps, hps, (hmem _ _ hip).mp (by simp)⟩, hwrites, hagain _ hwrites⟩

end AddressList

end ForwardedIp
