import ForwardedIp.Proofs.PrintedDocuments
/-!
# Literals and numbers as they are written

The characters of a literal stand there as they are or are escaped in any way, and half of one may
stand alone. Numbers may have any size. Both are scanned up to their end, whatever a reader wants of
them.
-/
namespace ForwardedIp.Json

theorem Reader.isGap_of_startsNumber {c : Char} (h : startsNumber c = true) :
    isGap c = false := by
  cases hgap : isGap c with
  | false => rfl
  | true =>
    simp only [isGap, Bool.or_eq_true, beq_iff_eq] at hgap
    rcases hgap with ((rfl | rfl) | rfl) | rfl <;> cases h

theorem Reader.ne_of_startsNumber {c : Char} (h : startsNumber c = true) :
    c ≠ 'n' ∧ c ≠ 't' ∧ c ≠ 'f' ∧ c ≠ '"' ∧ c ≠ '[' ∧ c ≠ '\x7b' := by
  refine ⟨?_, ?_, ?_, ?_, ?_, ?_⟩ <;> (rintro rfl; cases h)

/-- Blanks between the parts of a document. -/
structure Gap where
  chars : List Char
  blank : ∀ c ∈ chars, Reader.isGap c = true

/-- How a character of a literal, or half of one, is written. -/
inductive Spelling where
  | plain (c : Char) (h : c ≠ '"' ∧ c ≠ '\\' ∧ ¬ c.toNat < 0x20)
  | letter (e c : Char) (h : Literal.escaped? e = some c)
  | quad (a b c d : Char) (n : Nat) (h : Text.ofHex? [a, b, c, d] = some n)

namespace Spelling

def text : Spelling → List Char
  | plain c _ => [c]
  | letter e _ _ => ['\\', e]
  | quad a b c d _ _ => ['\\', 'u', a, b, c, d]

def piece : Spelling → Piece
  | plain c _ => .char c
  | letter _ c _ => .char c
  | quad _ _ _ _ n _ => .unit n

theorem scan_text (s : Spelling) (cs : List Char) :
    Literal.scan (s.text ++ cs) = (Literal.scan cs).cons s.piece := by
  cases s with
  | plain c h => exact Literal.scan_plain h.1 h.2.1 h.2.2 cs
  | letter e c h =>
    have hu : e ≠ 'u' := by
      rintro rfl
      cases h
    exact Literal.scan_escape h hu cs
  | quad a b c d n h =>
    show Literal.scan ('\\' :: 'u' :: a :: b :: c :: d :: cs) = _
    rw [Literal.scan, h]
    rfl

/-- A literal after its opening quote. -/
def literal (ss : List Spelling) : List Char := ss.flatMap text ++ ['"']

/-- The text that a literal stands for. Halves of characters stand for one in pairs only. -/
def meaning? (ss : List Spelling) : Option String :=
  (Literal.join .malformed (ss.map piece)).toOption.map String.ofList

theorem scan_literal (ss : List Spelling) (rest : List Char) :
    Literal.scan (literal ss ++ rest) = ⟨ss.map piece, .ok rest⟩ := by
  induction ss with
  | nil => rfl
  | cons s ss ih =>
    rw [literal, List.flatMap_cons, List.append_assoc, List.append_assoc, scan_text,
      ← List.append_assoc, ← literal, ih]
    rfl

theorem skipLiteral_literal (ss : List Spelling) (rest : List Char) :
    Reader.skipLiteral (literal ss ++ rest) = .ok ((), rest) := by
  rw [Reader.skipLiteral, scan_literal]
  rfl

theorem literal_literal (ss : List Spelling) (rest : List Char) :
    (Reader.literal (literal ss ++ rest)).toOption = (meaning? ss).map (·, rest) := by
  unfold Reader.literal meaning?
  rw [scan_literal, Literal.read]
  cases Literal.join .malformed (ss.map piece) <;> rfl

end Spelling

/-- Digits, at least one. -/
structure Digits where
  chars : List Char
  isDigit : ∀ c ∈ chars, c.isDigit = true
  ne_nil : chars ≠ []

/-- A number as it is written. An integer part that begins with a zero is that zero. -/
structure NumberSpelling where
  negative : Bool
  whole : Digits
  leading : whole.chars.head? = some '0' → whole.chars = ['0']
  fraction : Option Digits
  /-- The letter, the sign and the digits of an exponent. -/
  exponent : Option (Bool × Option Bool × Digits)

namespace Digits

/-- A text that does not go on with a digit. -/
def Ends (rest : List Char) : Prop := ∀ c, rest.head? = some c → c.isDigit = false

theorem takeWhile_append {cs rest : List Char} (hcs : ∀ c ∈ cs, c.isDigit = true)
    (hrest : Ends rest) : (cs ++ rest).takeWhile Char.isDigit = cs ∧
      (cs ++ rest).dropWhile Char.isDigit = rest := by
  rw [List.takeWhile_append_of_pos hcs, List.dropWhile_append_of_pos hcs]
  cases rest with
  | nil => simp
  | cons c rest => simp [hrest c rfl]

theorem digits_chars (ds : Digits) {rest : List Char} (hrest : Ends rest) (wanted : Bool) :
    Numeral.digits wanted (ds.chars ++ rest) = .ok (ds.chars, rest) := by
  obtain ⟨htake, hdrop⟩ := takeWhile_append ds.isDigit hrest
  have hne : ds.chars.isEmpty = false := by simpa using ds.ne_nil
  unfold Numeral.digits
  rw [htake, hdrop]
  simp only [hne, Bool.false_eq_true, if_false]

end Digits

namespace NumberSpelling

def signText : Option Bool → List Char
  | none => []
  | some false => ['+']
  | some true => ['-']

def exponentText : Option (Bool × Option Bool × Digits) → List Char
  | none => []
  | some (capital, sign, digits) =>
      (if capital then 'E' else 'e') :: (signText sign ++ digits.chars)

def fractionText : Option Digits → List Char
  | none => []
  | some digits => '.' :: digits.chars

def text (n : NumberSpelling) : List Char :=
  (if n.negative then ['-'] else []) ++
    (n.whole.chars ++ (fractionText n.fraction ++ exponentText n.exponent))

/-- What a number is scanned as. -/
def numeral (n : NumberSpelling) : Numeral where
  negative := n.negative
  whole := n.whole.chars
  fraction := n.fraction.map (·.chars)
  exponent := n.exponent.map fun e => (e.2.1.getD false, e.2.2.chars)

variable {rest : List Char}

/-- Nothing that can follow a value goes on with a number. -/
theorem head_of_apart (hrest : Reader.Apart rest) {c : Char} (hc : rest.head? = some c) :
    c.isDigit = false ∧ c ≠ '.' ∧ ¬ (c = 'e' ∨ c = 'E') := by
  rcases hrest c hc with hgap | rfl | rfl | rfl
  · simp only [Reader.isGap, Bool.or_eq_true, beq_iff_eq] at hgap
    rcases hgap with ((rfl | rfl) | rfl) | rfl <;> decide
  all_goals decide

theorem ends_of_apart (hrest : Reader.Apart rest) : Digits.Ends rest :=
  fun _ hc => (head_of_apart hrest hc).1

theorem ends_exponentText (e : Option (Bool × Option Bool × Digits)) (hrest : Reader.Apart rest) :
    Digits.Ends (exponentText e ++ rest) := by
  cases e with
  | none => exact ends_of_apart hrest
  | some e =>
    obtain ⟨capital, sign, digits⟩ := e
    rintro c hc
    cases capital <;> cases hc <;> rfl

theorem head?_exponentText_ne (e : Option (Bool × Option Bool × Digits))
    (hrest : Reader.Apart rest) : (exponentText e ++ rest).head? ≠ some '.' := by
  intro hhead
  cases e with
  | none => exact (head_of_apart hrest hhead).2.1 rfl
  | some e =>
    obtain ⟨capital, sign, digits⟩ := e
    cases capital <;> cases hhead

theorem ends_fractionText (f : Option Digits) {tail : List Char} (htail : Digits.Ends tail) :
    Digits.Ends (fractionText f ++ tail) := by
  cases f with
  | none => exact htail
  | some digits =>
    rintro c hc
    cases hc
    rfl

theorem wholeDigits_whole (n : NumberSpelling) (hrest : Digits.Ends rest) (wanted : Bool) :
    Numeral.wholeDigits wanted (n.whole.chars ++ rest) = .ok (n.whole.chars, rest) := by
  have hdigits := n.whole.digits_chars hrest wanted
  cases hchars : n.whole.chars with
  | nil => exact absurd hchars n.whole.ne_nil
  | cons d ds =>
    rw [hchars] at hdigits
    by_cases hzero : d = '0'
    · subst hzero
      obtain rfl : ds = [] := by simpa [hchars] using n.leading
      have hnext : (rest.head?.map Char.isDigit).getD false = false := by
        cases hhead : rest.head? with
        | none => rfl
        | some c => exact hrest c hhead
      simp only [Numeral.wholeDigits, List.cons_append, List.nil_append, hnext,
        Bool.false_eq_true, if_false]
    · rw [List.cons_append] at hdigits ⊢
      unfold Numeral.wholeDigits
      split
      · next heq => exact absurd (List.cons.inj heq).1 hzero
      · exact hdigits

theorem exponentSign_signText (sign : Option Bool) (digits : Digits) (rest : List Char) :
    Numeral.exponentSign (signText sign ++ digits.chars ++ rest) =
      (sign.getD false, digits.chars ++ rest) := by
  cases sign with
  | some down => cases down <;> rfl
  | none =>
    cases hchars : digits.chars with
    | nil => exact absurd hchars digits.ne_nil
    | cons d ds =>
      have hdigit := digits.isDigit d (by simp [hchars])
      rw [signText, List.nil_append, List.cons_append]
      unfold Numeral.exponentSign
      split
      · next heq => exact absurd (List.cons.inj heq).1 (by rintro rfl; cases hdigit)
      · next heq => exact absurd (List.cons.inj heq).1 (by rintro rfl; cases hdigit)
      · rfl

theorem exponentDigits_exponentText (e : Option (Bool × Option Bool × Digits))
    (hrest : Reader.Apart rest) (wanted : Bool) :
    Numeral.exponentDigits wanted (exponentText e ++ rest) =
      .ok (e.map fun e => (e.2.1.getD false, e.2.2.chars), rest) := by
  cases e with
  | none =>
    cases rest with
    | nil => rfl
    | cons c rest =>
      have hletter := (head_of_apart hrest rfl).2.2
      simp only [exponentText, List.nil_append, Numeral.exponentDigits, if_neg hletter,
        Option.map_none]
  | some e =>
    obtain ⟨capital, sign, digits⟩ := e
    have hdigits := digits.digits_chars (ends_of_apart hrest) wanted
    have hletter : (if capital then 'E' else 'e') = 'e' ∨ (if capital then 'E' else 'e') = 'E' := by
      cases capital <;> decide
    rw [exponentText, List.cons_append]
    simp only [Numeral.exponentDigits, if_pos hletter, exponentSign_signText, hdigits]
    rfl

theorem fractionDigits_fractionText (f : Option Digits) {tail : List Char}
    (htail : Digits.Ends tail) (hpoint : tail.head? ≠ some '.') (wanted : Bool) :
    Numeral.fractionDigits wanted (fractionText f ++ tail) =
      .ok (f.map (·.chars), tail) := by
  cases f with
  | none =>
    unfold Numeral.fractionDigits fractionText
    split
    · next cs heq =>
      rw [List.nil_append] at heq
      rw [heq] at hpoint
      exact absurd rfl hpoint
    · rfl
  | some digits =>
    show (Numeral.digits wanted (digits.chars ++ tail)).map _ = _
    rw [digits.digits_chars htail]
    rfl

/-- A number is scanned up to its end. -/
theorem scan_text (n : NumberSpelling) (hrest : Reader.Apart rest) (wanted : Bool) :
    Numeral.scan wanted (n.text ++ rest) = .ok (n.numeral, rest) := by
  have hexponent := exponentDigits_exponentText n.exponent hrest wanted
  have htail := ends_exponentText n.exponent hrest
  have hfraction := fractionDigits_fractionText n.fraction htail
    (head?_exponentText_ne n.exponent hrest) wanted
  have hwhole := n.wholeDigits_whole (ends_fractionText n.fraction htail) wanted
  unfold text
  cases hnegative : n.negative with
  | true =>
    simp only [if_true, List.append_assoc, List.cons_append, List.nil_append, Numeral.scan, hwhole,
      hfraction, hexponent, bind, Except.bind, numeral, hnegative]
    rfl
  | false =>
    cases hchars : n.whole.chars with
    | nil => exact absurd hchars n.whole.ne_nil
    | cons d ds =>
      have hdigit := n.whole.isDigit d (by simp [hchars])
      have hminus : d ≠ '-' := by
        rintro rfl
        cases hdigit
      rw [hchars, List.cons_append] at hwhole
      simp only [Bool.false_eq_true, if_false, List.nil_append, List.append_assoc,
        List.cons_append]
      unfold Numeral.scan
      split
      next negative cs heq =>
        split at heq
        · next hsign => exact absurd (List.cons.inj hsign).1 hminus
        · cases heq
          simp only [hwhole, hfraction, hexponent, bind, Except.bind, numeral, hnegative, hchars]
          rfl

/-- A number begins with its sign or with a digit. -/
theorem opens (n : NumberSpelling) :
    ∃ c cs, n.text = c :: cs ∧ Reader.startsNumber c = true := by
  unfold text
  cases n.negative with
  | true => exact ⟨'-', _, rfl, rfl⟩
  | false =>
    cases hchars : n.whole.chars with
    | nil => exact absurd hchars n.whole.ne_nil
    | cons d ds =>
      have hdigit := n.whole.isDigit d (by simp [hchars])
      exact ⟨d, _, rfl, by simp [Reader.startsNumber, hdigit]⟩

end NumberSpelling

end ForwardedIp.Json
