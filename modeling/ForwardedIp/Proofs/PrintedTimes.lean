import ForwardedIp.Proofs.Calendar
import ForwardedIp.Proofs.PrintedForms
/-!
# Printed times

Every point in time that can be read, and every one that a clock can tell, reads back from its
printed form, leap seconds and years of more than four digits included.
-/
namespace ForwardedIp

theorem Text.ofDecimal?_zeros (k : Nat) (cs : List Char) :
    ofDecimal? (List.replicate k '0' ++ cs) = ofDecimal? cs := by
  induction k with
  | zero => rfl
  | succ k ih =>
    rw [List.replicate_succ, List.cons_append]
    exact ih

theorem Text.ofDecimal?_lt {cs : List Char} {n : Nat} (h : ofDecimal? cs = some n) :
    n < 10 ^ cs.length := by
  have hfold : ∀ (cs : List Char) (start n : Nat),
      cs.foldlM (fun n c => (decimalDigit? c).map (10 * n + ·)) start = some n →
        n < (start + 1) * 10 ^ cs.length := by
    intro cs
    induction cs with
    | nil =>
      intro start n h
      cases h
      simp
    | cons c cs ih =>
      intro start n h
      obtain ⟨next, hnext, h⟩ := Option.bind_eq_some_iff.mp h
      obtain ⟨d, hd, rfl⟩ := Option.map_eq_some_iff.mp hnext
      have hdigit : d < 10 := by
        unfold decimalDigit? at hd
        split at hd
        · next hc =>
          cases hd
          have hnine : c.toNat ≤ '9'.toNat := hc.2
          have hvalues : '0'.toNat = 48 ∧ '9'.toNat = 57 := by decide
          omega
        · cases hd
      calc n < (10 * start + d + 1) * 10 ^ cs.length := ih _ _ h
        _ ≤ ((start + 1) * 10) * 10 ^ cs.length := Nat.mul_le_mul_right _ (by omega)
        _ = (start + 1) * 10 ^ (c :: cs).length := by
          rw [List.length_cons, Nat.pow_succ, Nat.mul_assoc, Nat.mul_comm 10]
  simpa using hfold cs 0 n h

theorem Text.isBlank_of_isDigit {c : Char} (h : c.isDigit = true) : isBlank c = false := by
  have hdigit := Char.isDigit_iff_toNat.mp h
  have hzero : '0'.toNat = 48 := rfl
  have hnine : '9'.toNat = 57 := rfl
  simp only [isBlank, Bool.or_eq_false_iff, Bool.and_eq_false_iff, decide_eq_false_iff_not,
    beq_eq_false_iff_ne, ne_eq]
  omega

namespace Timestamp

/-- A point in time that exists: its year is in the calendar's range, its second is one of a day,
and only the last second of a minute can be a leap second. -/
structure Valid (t : Timestamp) : Prop where
  year_ge : yearRange.1 ≤ (dateOfDay t.day).1
  year_le : (dateOfDay t.day).1 ≤ yearRange.2
  second_lt : t.second < 86400
  nano_lt : t.nano < 2000000000
  leap : 1000000000 ≤ t.nano → t.second % 60 = 59

theorem valid_epoch : Valid ⟨0, 0, 0⟩ :=
  ⟨by decide, by decide, by decide, by decide, by decide⟩

variable {α β : Type} {width n : Nat} {cs rest : List Char}

theorem run_some {x : Scanner α} {f : α → Scanner β} {a : α} (h : x cs = some (a, rest)) :
    (x >>= f) cs = f a rest := by
  show Option.bind (x cs) _ = _
  rw [h]
  rfl

theorem get_run (cs : List Char) : (get : Scanner (List Char)) cs = some (cs, cs) := rfl

theorem modify_run (f : List Char → List Char) (cs : List Char) :
    (modify f : Scanner Unit) cs = some ((), f cs) := rfl

theorem one_cons {p : Char → Bool} {c : Char} (hc : p c = true) (rest : List Char) :
    one p (c :: rest) = some (c, rest) := by simp [one, hc]

theorem blanks_cons {c : Char} (hc : Text.isBlank c = false) (rest : List Char) :
    blanks (c :: rest) = some ((), c :: rest) :=
  congrArg (fun cs => some ((), cs)) (Text.trimStart_cons hc)

section Padded

theorem isDigit_of_mem_padded {c : Char} (h : c ∈ padded width n) : c.isDigit = true := by
  rcases List.mem_append.mp h with h | h
  · rw [List.eq_of_mem_replicate h]
    rfl
  · exact Nat.isDigit_of_mem_toDigits (by decide) (by decide) h

theorem length_padded (hwidth : 0 < width) (h : n < 10 ^ width) :
    (padded width n).length = width := by
  have hle : (Nat.toDigits 10 n).length ≤ width :=
    (Nat.length_toDigits_le_iff (by decide) hwidth).mpr h
  rw [padded, List.length_append, List.length_replicate]
  omega

theorem ofDecimal?_padded (width n : Nat) : Text.ofDecimal? (padded width n) = some n := by
  rw [padded, Text.ofDecimal?_zeros, Text.ofDecimal?_toDigits]

theorem exists_padded_eq (width n : Nat) : ∃ c cs, padded width n = c :: cs ∧ c.isDigit = true := by
  cases h : padded width n with
  | nil =>
    have hnil := (List.append_eq_nil_iff.mp h).2
    exact absurd hnil (List.ne_nil_of_length_pos Nat.length_toDigits_pos)
  | cons c cs => exact ⟨c, cs, rfl, isDigit_of_mem_padded (h ▸ List.mem_cons_self)⟩

theorem takeWhile_padded (width n : Nat) :
    (padded width n).takeWhile Char.isDigit = padded width n := by
  rw [← List.append_nil (padded width n),
    List.takeWhile_append_of_pos fun _ => isDigit_of_mem_padded, List.takeWhile_nil]

theorem isEmpty_padded (width n : Nat) : (padded width n).isEmpty = false := by
  obtain ⟨c, cs, h, -⟩ := exists_padded_eq width n
  rw [h]
  rfl

/-- As many digits as are asked for are taken. -/
theorem digits_padded (hwidth : 0 < width) (h : n < 10 ^ width) (rest : List Char) :
    digits (some width) (padded width n ++ rest) = some (padded width n, rest) := by
  have hlength := length_padded hwidth h
  have htake : (padded width n ++ rest).take width = padded width n := by
    rw [List.take_append_of_le_length (by omega), List.take_of_length_le (by omega)]
  simp only [digits, htake, takeWhile_padded, isEmpty_padded, Bool.false_eq_true, if_false,
    List.drop_left]

/-- All digits up to another character are taken. -/
theorem digits_padded_cons (width n : Nat) {c : Char} (hc : c.isDigit = false) (rest : List Char) :
    digits none (padded width n ++ c :: rest) = some (padded width n, c :: rest) := by
  have htake : (padded width n ++ c :: rest).takeWhile Char.isDigit = padded width n := by
    rw [List.takeWhile_append_of_pos fun _ => isDigit_of_mem_padded,
      List.takeWhile_cons_of_neg (by simp [hc]), List.append_nil]
  simp only [digits, htake, isEmpty_padded, Bool.false_eq_true, if_false, List.drop_left]

theorem blanks_padded (width n : Nat) (rest : List Char) :
    blanks (padded width n ++ rest) = some ((), padded width n ++ rest) := by
  obtain ⟨c, cs, h, hc⟩ := exists_padded_eq width n
  rw [h, List.cons_append]
  exact blanks_cons (Text.isBlank_of_isDigit hc) _

end Padded

theorem number_padded (hwidth : 0 < width) (h : n < 10 ^ width) (rest : List Char) :
    number width (padded width n ++ rest) = some (n, rest) := by
  unfold number
  rw [run_some (blanks_padded width n rest), run_some (digits_padded hwidth h rest)]
  simp only [ofDecimal?_padded]
  rfl

theorem mark_cons {c : Char} (hc : Text.isBlank c = false) (rest : List Char) :
    mark c (c :: rest) = some ((), rest) := by
  unfold mark
  rw [run_some (blanks_cons hc rest), run_some (one_cons (p := (· == c)) (beq_self_eq_true c) rest)]
  rfl

theorem fraction_padded (hwidth : 0 < width) (hmost : width ≤ 9) (h : n < 10 ^ width)
    {c : Char} (hc : c.isDigit = false) (rest : List Char) :
    fraction ('.' :: (padded width n ++ c :: rest)) = some (n * 10 ^ (9 - width), c :: rest) := by
  have hlength := length_padded hwidth h
  have hfirst : (padded width n).take 9 = padded width n :=
    List.take_of_length_le (by omega)
  unfold fraction
  rw [run_some (get_run _), if_pos (by rw [List.head?_cons]), run_some (modify_run _ _),
    List.drop_one, List.tail_cons, run_some (digits_padded_cons width n hc rest)]
  simp only [hfirst, hlength, ofDecimal?_padded]
  rfl

theorem fraction_of_ne {c : Char} (hc : c ≠ '.') (rest : List Char) :
    fraction (c :: rest) = some (0, c :: rest) := by
  unfold fraction
  rw [run_some (get_run _), if_neg (by simpa using hc)]
  rfl

/-- A printed fraction reads back. -/
theorem fraction_fractionChars {nano : Nat} (h : nano < 1000000000) {c : Char}
    (hc : c.isDigit = false) (hpoint : c ≠ '.') (rest : List Char) :
    fraction (fractionChars nano ++ c :: rest) = some (nano, c :: rest) := by
  unfold fractionChars
  split
  · next hzero =>
    subst hzero
    exact fraction_of_ne hpoint rest
  · split
    · next hmilli =>
      rw [List.cons_append, fraction_padded (by decide) (by decide) (by omega) hc,
        show nano / 1000000 * 10 ^ (9 - 3) = nano by omega]
    · split
      · next hmicro =>
        rw [List.cons_append, fraction_padded (by decide) (by decide) (by omega) hc,
          show nano / 1000 * 10 ^ (9 - 6) = nano by omega]
      · rw [List.cons_append, fraction_padded (by decide) (by decide) (by omega) hc,
          show nano * 10 ^ (9 - 9) = nano by omega]

/-- A year without a sign reads back. -/
theorem year_unsigned {y : Nat} (hy : y < 10 ^ 4) (rest : List Char) :
    year (padded 4 y ++ '-' :: rest) = some ((y : Int), '-' :: rest) := by
  have hblanks := blanks_padded 4 y ('-' :: rest)
  have hdigits := digits_padded (show 0 < 4 by decide) hy ('-' :: rest)
  have hdecimal := ofDecimal?_padded 4 y
  obtain ⟨c, cs, hopen, hc⟩ := exists_padded_eq 4 y
  rw [hopen] at hblanks hdigits hdecimal ⊢
  have hminus : c ≠ '-' := by
    rintro rfl
    cases hc
  have hplus : c ≠ '+' := by
    rintro rfl
    cases hc
  unfold year
  rw [run_some hblanks, run_some (get_run _)]
  have hunsigned : ((do return (← Text.ofDecimal? (← digits (some 4)) : Nat)) : Scanner Int)
      (c :: cs ++ '-' :: rest) = some ((y : Int), '-' :: rest) := by
    rw [run_some hdigits]
    simp only [hdecimal]
    rfl
  -- The first character is a digit, so it selects neither of the signs.
  refine (congrFun ?_ _).trans hunsigned
  split
  · next heq => exact absurd (Option.some.inj heq) hminus
  · next heq => exact absurd (Option.some.inj heq) hplus
  · rfl

/-- A year with a sign reads back. -/
theorem year_signed (y : Int) (rest : List Char) :
    year ((if y < 0 then '-' else '+') :: padded 4 y.natAbs ++ '-' :: rest) =
      some (y, '-' :: rest) := by
  have hdigits := digits_padded_cons 4 y.natAbs (c := '-') rfl rest
  have hdecimal := ofDecimal?_padded 4 y.natAbs
  have hread (sign : Nat → Int) (hy : sign y.natAbs = y) :
      ((do return sign (← Text.ofDecimal? (← digits none))) : Scanner Int)
        (padded 4 y.natAbs ++ '-' :: rest) = some (y, '-' :: rest) := by
    rw [run_some hdigits]
    simp only [hdecimal]
    exact congrArg (fun y => some (y, '-' :: rest)) hy
  unfold year
  by_cases hneg : y < 0
  · rw [if_pos hneg, List.cons_append, run_some (blanks_cons rfl _), run_some (get_run _)]
    exact hread (fun n => -(n : Int)) (by omega)
  · rw [if_neg hneg, List.cons_append, run_some (blanks_cons rfl _), run_some (get_run _)]
    exact hread (fun n => n) (by omega)

/-- A printed year reads back in front of the mark after it. -/
theorem year_yearChars (y : Int) (rest : List Char) :
    year (yearChars y ++ '-' :: rest) = some (y, '-' :: rest) := by
  unfold yearChars
  split
  · next hshort =>
    have hy : ((y.toNat : Nat) : Int) = y := by omega
    rw [year_unsigned (by omega) rest, hy]
  · exact year_signed y rest

theorem zone_utc (rest : List Char) : zone ('Z' :: rest) = some (0, rest) := by
  have hletters : ¬ (('Z' :: rest).take 3).map Char.toUpper = ['U', 'T', 'C'] := by
    intro h
    injection h with hhead
    revert hhead
    decide
  unfold zone
  rw [run_some (get_run _)]
  simp only [hletters, if_false]
  rfl

/-- A printed date and time are taken part by part. -/
theorem scan_printed (y : Int) {month day hour minute second nano : Nat} (hmonth : month < 100)
    (hday : day < 100) (hhour : hour < 100) (hminute : minute < 100) (hsecond : second < 100)
    (hnano : nano < 1000000000) :
    scan (yearChars y ++ '-' :: (padded 2 month ++ '-' :: (padded 2 day ++ 'T' ::
      (padded 2 hour ++ ':' :: (padded 2 minute ++ ':' :: (padded 2 second ++
        (fractionChars nano ++ ['Z']))))))) =
      (ofLocal? y month day hour minute second nano 0).map (·, []) := by
  have hfraction := fraction_fractionChars hnano (c := 'Z') rfl (by decide) []
  unfold scan
  rw [run_some (year_yearChars _ _), run_some (mark_cons rfl _),
    run_some (number_padded (by decide) hmonth _), run_some (mark_cons rfl _),
    run_some (number_padded (by decide) hday _), run_some (one_cons rfl _),
    run_some (number_padded (by decide) hhour _), run_some (mark_cons rfl _),
    run_some (number_padded (by decide) hminute _), run_some (mark_cons rfl _),
    run_some (number_padded (by decide) hsecond _), run_some hfraction,
    run_some (blanks_cons rfl _), run_some (zone_utc _)]
  cases ofLocal? y month day hour minute second nano 0 <;> rfl

/-- The time of day and the date of a point in time make it up again. -/
theorem ofLocal?_utc {t : Timestamp} (h : t.Valid) :
    let date := dateOfDay t.day
    let leap := 1000000000 ≤ t.nano
    ofLocal? date.1 date.2.1 date.2.2 (t.second / 3600) (t.second / 60 % 60)
      (t.second % 60 + (if leap then 1 else 0)) (if leap then t.nano - 1000000000 else t.nano) 0 =
        some t := by
  intro date leap
  obtain ⟨⟨hmonth, hmonth'⟩, ⟨hday, hday'⟩, hspec⟩ := dateOfDay_spec t.day
  have hdate : dayOfDate date.1 date.2.1 date.2.2 = t.day := hspec
  have hlt := h.second_lt
  have hsecond : (if t.second % 60 + (if leap then 1 else 0) = 60 then (59,
      (if leap then t.nano - 1000000000 else t.nano) + 1000000000) else
      (t.second % 60 + (if leap then 1 else 0),
        if leap then t.nano - 1000000000 else t.nano)) = (t.second % 60, t.nano) := by
    by_cases hleap : leap
    · have hlast := h.leap hleap
      have hnano : t.nano - 1000000000 + 1000000000 = t.nano := Nat.sub_add_cancel hleap
      simp only [hleap, hlast, if_true, hnano]
    · have hne : ¬ t.second % 60 + 0 = 60 := by omega
      simp only [hleap, if_false, hne]
      rfl
  have htotal : (((t.second / 3600 : Nat) : Int) * 3600 + ((t.second / 60 % 60 : Nat) : Int) * 60 +
      ((t.second % 60 : Nat) : Int) - 0) = t.second := by omega
  have hdays : (t.second : Int) / 86400 = 0 := by omega
  have hrest : ((t.second : Int) % 86400).toNat = t.second := by omega
  unfold ofLocal?
  rw [if_pos ⟨h.year_ge, h.year_le, hmonth, hmonth', hday, hday', by omega, by omega,
    by split <;> omega, by decide⟩]
  simp only [hsecond, htotal, hdays, hrest, hdate, Int.add_zero]
  rw [if_pos ⟨h.year_ge, h.year_le⟩]

/-- A point in time reads back from its printed form. -/
theorem parse?_text {t : Timestamp} (h : t.Valid) : parse? t.text = some t := by
  obtain ⟨⟨-, hmonth⟩, ⟨-, hday⟩, -⟩ := dateOfDay_spec t.day
  have hlong : daysInMonth (dateOfDay t.day).1 (dateOfDay t.day).2.1 ≤ 31 := by
    unfold daysInMonth
    split
    · split <;> decide
    · split <;> decide
  have hlt := h.second_lt
  have hnano := h.nano_lt
  have hmonth : (dateOfDay t.day).2.1 < 100 := by omega
  have hday : (dateOfDay t.day).2.2 < 100 := by omega
  have hhour : t.second / 3600 < 100 := by omega
  have hminute : t.second / 60 % 60 < 100 := by omega
  have hsecond : t.second % 60 + (if 1000000000 ≤ t.nano then 1 else 0) < 100 := by split <;> omega
  have hfraction : (if 1000000000 ≤ t.nano then t.nano - 1000000000 else t.nano) < 1000000000 := by
    split <;> omega
  have hscan := scan_printed (dateOfDay t.day).1 hmonth hday hhour hminute hsecond hfraction
  have hlocal := ofLocal?_utc h
  simp only at hlocal
  rw [hlocal] at hscan
  unfold parse? text
  simp only [String.toList_ofList, List.append_assoc, List.cons_append]
  rw [hscan]
  rfl

/-! ## Points in time that can be read -/

/-- Whatever a scanner takes satisfies a property. -/
def Gives (x : Scanner α) (P : α → Prop) : Prop := ∀ cs a rest, x cs = some (a, rest) → P a

theorem Gives.bind {x : Scanner α} {f : α → Scanner β} {P : α → Prop} {Q : β → Prop}
    (hx : Gives x P) (hf : ∀ a, P a → Gives (f a) Q) : Gives (x >>= f) Q := by
  intro cs b rest h
  obtain ⟨⟨a, mid⟩, ha, hb⟩ := Option.bind_eq_some_iff.mp h
  exact hf a (hx cs a mid ha) mid b rest hb

theorem Gives.after {x : Scanner α} {f : α → Scanner β} {Q : β → Prop}
    (hf : ∀ a, Gives (f a) Q) : Gives (x >>= f) Q :=
  .bind (P := fun _ => True) (fun _ _ _ _ => trivial) fun a _ => hf a

theorem Gives.pure {a : α} {P : α → Prop} (h : P a) : Gives (pure a) P := by
  intro cs b rest hb
  cases hb
  exact h

theorem Gives.lift {x : Option α} {P : α → Prop} (h : ∀ a, x = some a → P a) :
    Gives (liftM x : Scanner α) P := by
  intro cs a rest ha
  obtain ⟨b, hx, hb⟩ := Option.bind_eq_some_iff.mp ha
  cases hb
  exact h a hx

theorem fraction_lt : Gives fraction (· < 1000000000) := by
  refine .after fun _ => ?_
  split
  · refine .after fun _ => .after fun ds => .bind (P := (· < 10 ^ (ds.take 9).length))
      (.lift fun _ => Text.ofDecimal?_lt) fun n hn => .pure ?_
    have hshort : (ds.take 9).length ≤ 9 := by simp
    calc n * 10 ^ (9 - (ds.take 9).length)
        < 10 ^ (ds.take 9).length * 10 ^ (9 - (ds.take 9).length) :=
          Nat.mul_lt_mul_of_pos_right hn (Nat.pow_pos (by decide))
      _ = 1000000000 := by rw [← Nat.pow_add, Nat.add_sub_cancel' hshort]
  · exact .pure (by decide)

theorem offset_minutes : Gives offset (· % 60 = 0) := by
  unfold offset
  iterate 8 refine .after fun _ => ?_
  refine .pure ?_
  split <;> omega

/-- Offsets are whole minutes. -/
theorem zone_minutes : Gives zone (· % 60 = 0) := by
  refine .after fun _ => ?_
  split
  · exact .after fun _ => .pure rfl
  · split
    · exact .after fun _ => .pure rfl
    · exact offset_minutes

theorem valid_of_ofLocal? {y offset : Int} {month day hour minute second nano : Nat}
    {t : Timestamp} (hnano : nano < 1000000000) (hoffset : offset % 60 = 0)
    (h : ofLocal? y month day hour minute second nano offset = some t) : t.Valid := by
  unfold ofLocal? at h
  split at h
  · next hlocal =>
    obtain ⟨-, -, -, -, -, -, -, -, hsecond, -⟩ := hlocal
    by_cases hleap : second = 60
    · simp only [hleap, if_true] at h
      split at h
      · next hyear =>
        cases h
        exact ⟨hyear.1, hyear.2, by simp only; omega, by simp only; omega,
          fun _ => by simp only; omega⟩
      · cases h
    · simp only [hleap, if_false] at h
      split at h
      · next hyear =>
        cases h
        exact ⟨hyear.1, hyear.2, by simp only; omega, by simp only; omega,
          fun hle => by simp only at hle; omega⟩
      · cases h
  · cases h

theorem scan_valid : Gives scan Valid := by
  unfold scan
  iterate 11 refine .after fun _ => ?_
  exact .bind fraction_lt fun nano hnano => .after fun _ => .bind zone_minutes
    fun offset hoffset => .lift fun t ht => valid_of_ofLocal? hnano hoffset ht

/-- Only points in time that exist are read. -/
theorem valid_of_parse? {text : String} {t : Timestamp} (h : parse? text = some t) : t.Valid := by
  obtain ⟨⟨t', rest⟩, hscan, h⟩ := Option.bind_eq_some_iff.mp h
  simp only at h
  split at h
  · cases h
    exact scan_valid _ _ _ hscan
  · cases h

end Timestamp
end ForwardedIp
