import ForwardedIp.Config.Document
import ForwardedIp.Proofs.PrintedForms
import ForwardedIp.Proofs.SpelledTokens
/-!
# Printed numbers, flags and optional values

Naturals of 64 bits, flags, nulls and optional fields are read back from their printed form.
-/
namespace ForwardedIp.Json

namespace NumberSpelling

/-- A natural as it is printed. -/
def natural (n : Nat) : NumberSpelling where
  negative := false
  whole :=
    { chars := Nat.toDigits 10 n
      isDigit := fun _ hc => Nat.isDigit_of_mem_toDigits (by decide) (by decide) hc
      ne_nil := List.ne_nil_of_length_pos Nat.length_toDigits_pos }
  leading h := by
    rcases Nat.eq_zero_or_pos n with rfl | hn
    · rfl
    · exact absurd h (Text.head?_toDigits_ne (by decide) hn)
  fraction := none
  exponent := none

theorem chars_nat (l : Layout) (depth n : Nat) :
    (Value.nat n).chars l depth = (natural n).text := by
  have htext : (Number.int n).text = toString n := rfl
  rw [Value.nat, Value.int, Value.chars, htext]
  simp [text, natural, fractionText, exponentText, toString, Nat.repr]

/-- A natural of 64 bits is kept exactly. -/
theorem value_natural {n : Nat} (h : n < UInt64.size) :
    (natural n).numeral.value = .ok (.int n) := by
  have hfits : n < Numeral.significandBound := h
  unfold Numeral.value
  simp [numeral, natural, Text.ofDecimal?_toDigits, hfits]

end NumberSpelling

namespace Reader
variable {α : Type} {l : Layout} {depth : Nat}

theorem takes_natural {n : Nat} (h : n < UInt64.size) :
    Takes natural ((Value.nat n).chars l depth) n where
  opens := by
    rw [NumberSpelling.chars_nat]
    obtain ⟨c, cs, htext, hstarts⟩ := (NumberSpelling.natural n).opens
    refine ⟨c, cs, htext, isGap_of_startsNumber hstarts, ?_⟩
    rintro rfl
    cases hstarts
  run gap rest hgap hrest := by
    have hscan := (NumberSpelling.natural n).scan_text hrest true
    obtain ⟨c, cs, htext, hstarts⟩ := (NumberSpelling.natural n).opens
    rw [NumberSpelling.chars_nat]
    rw [htext, List.cons_append] at hscan ⊢
    have hnumber : number (c :: (cs ++ rest)) = .ok (.int n, rest) := by
      simp only [number, hscan, bind, Except.bind, NumberSpelling.value_natural h]
      rfl
    unfold natural
    rw [run_ok (peek_gap_cons hgap (isGap_of_startsNumber hstarts) _)]
    simp only [hstarts, if_true]
    rw [run_ok hnumber]
    rfl

theorem takes_readWord (n : UInt64) : Takes readWord ((wordToJson n).chars l depth) n := by
  have hnatural : Takes natural ((wordToJson n).chars l depth) n.toNat := takes_natural n.toNat_lt
  have hword := hnatural.returning UInt64.ofNat
  rwa [UInt64.ofNat_toNat] at hword

theorem takes_bool (b : Bool) : Takes bool ((Value.bool b).chars l depth) b where
  opens := by cases b <;> exact ⟨_, _, rfl, rfl, by decide⟩
  run gap rest hgap hrest := by
    unfold bool
    cases b with
    | true =>
      rw [Value.chars, List.cons_append, run_ok (peek_gap_cons hgap rfl _)]
      rfl
    | false =>
      rw [Value.chars, List.cons_append, run_ok (peek_gap_cons hgap rfl _)]
      rfl

/-- A null is nothing, and a text is itself. -/
theorem takes_optional (text : Option String) :
    Takes (optional string) ((Value.ofOption .string text).chars l depth) text := by
  cases text with
  | none =>
    refine ⟨⟨'n', _, rfl, rfl, by decide⟩, fun gap rest hgap hrest => ?_⟩
    unfold optional
    rw [Value.ofOption, Value.chars, List.cons_append, run_ok (peek_gap_cons hgap rfl _)]
    rfl
  | some text =>
    have htext := takes_string text
    rw [Value.ofOption, Value.chars]
    refine ⟨htext.opens, fun gap rest hgap hrest => ?_⟩
    have hread := htext.next hrest
    unfold optional
    rw [literalChars, List.cons_append] at hread ⊢
    rw [List.cons_append, run_ok (peek_gap_cons hgap rfl _)]
    exact run_ok hread

/-- A text is taken as a value, at any depth. -/
theorem takes_valueWithin (text : String) (budget : Nat) :
    Takes (valueWithin (budget + 1)) ((Value.string text).chars l depth) (.string text) where
  opens := ⟨'"', _, by rw [Value.chars]; rfl, rfl, by decide⟩
  run gap rest hgap hrest := by
    have hopen : literalChars text.toList ++ rest =
        '"' :: (text.toList.flatMap literalChar ++ '"' :: rest) := by simp [literalChars]
    unfold valueWithin
    rw [Value.chars, hopen, run_ok (peek_gap_cons hgap rfl _)]
    show (advance >>= fun _ => literal >>= _ : Reader Value) _ = _
    rw [run_ok (advance_cons _ _), run_ok (literal_literalChars _ _), String.ofList_toList]
    rfl

/-- A field that is there only with a text is read as that text, or stays as it was. -/
theorem Completes.option {σ : Type} (hl : l.Blank) {fields : List (Field σ)} {name : String}
    {f : σ → Option String → σ} {text : Option String} {seen : List String} {s : σ}
    {fs : List (String × Value)} {done : List String × σ}
    (hfield : fields.find? (·.name = name) =
      some ⟨name, fun s => return f s (← optional string)⟩)
    (hnew : name ∉ seen) (hunset : f s none = s)
    (rest : Completes (namedField fields) l depth
      ((text.toList.map fun _ => name) ++ seen, f s text) fs done) :
    Completes (namedField fields) l depth (seen, s)
      ((text.toList.map fun t => (name, .string t)) ++ fs) done := by
  cases text with
  | none => rwa [hunset] at rest
  | some text =>
    have htext : Takes (optional string) ((Value.string text).chars l (depth + 1)) (some text) :=
      takes_optional (some text)
    exact .known hl hfield hnew (htext.returning (f s)) rest

end Reader
end ForwardedIp.Json
