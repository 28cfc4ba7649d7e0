import ForwardedIp.Json.Reader
/-!
# Printed literals

A printed literal reads back as its characters, whatever they are and whatever follows it: escapes
of one letter, control characters as 16-bit escapes, and every other character as itself.
-/
namespace ForwardedIp.Json
namespace Literal

/-- The part of a literal that a printed character is scanned as. -/
def piece (c : Char) : Piece :=
  if (letterEscape? c).isNone ∧ c.toNat < 0x20 then .unit c.toNat else .char c

theorem escaped?_of_letterEscape? {c e : Char} (h : letterEscape? c = some e) :
    escaped? e = some c ∧ e ≠ 'u' := by
  unfold letterEscape? at h
  split at h <;> cases h <;> decide

theorem ne_of_letterEscape? {c : Char} (h : letterEscape? c = none) : c ≠ '"' ∧ c ≠ '\\' := by
  constructor <;> (rintro rfl; cases h)

theorem ofHex?_control : ∀ n, n < 0x20 →
    Text.ofHex? (['0', '0'] ++ Text.hexPair (UInt8.ofNat n)) = some n := by decide

theorem scan_escape {e c : Char} (h : escaped? e = some c) (hu : e ≠ 'u') (cs : List Char) :
    scan ('\\' :: e :: cs) = (scan cs).cons (.char c) := by
  rw [scan.eq_def]
  simp [hu, h]

theorem scan_control {n : Nat} (h : n < 0x20) (cs : List Char) :
    scan (['\\', 'u', '0', '0'] ++ Text.hexPair (UInt8.ofNat n) ++ cs) =
      (scan cs).cons (.unit n) := by
  have hquad := ofHex?_control n h
  simp only [Text.hexPair, List.cons_append, List.nil_append] at hquad ⊢
  rw [scan, hquad]

theorem scan_plain {c : Char} (hquote : c ≠ '"') (hbackslash : c ≠ '\\') (hplain : ¬ c.toNat < 0x20)
    (cs : List Char) : scan (c :: cs) = (scan cs).cons (.char c) := by
  rw [scan.eq_def]
  simp [hbackslash, hplain]

theorem scan_literalChar (c : Char) (cs : List Char) :
    scan (literalChar c ++ cs) = (scan cs).cons (piece c) := by
  unfold literalChar piece
  cases hletter : letterEscape? c with
  | some e =>
    obtain ⟨hescaped, hu⟩ := escaped?_of_letterEscape? hletter
    simpa using scan_escape hescaped hu cs
  | none =>
    obtain ⟨hquote, hbackslash⟩ := ne_of_letterEscape? hletter
    by_cases hcontrol : c.toNat < 0x20
    · simp only [Option.isNone_none, hcontrol, and_self, if_true]
      exact scan_control hcontrol cs
    · simp only [Option.isNone_none, hcontrol, and_false, if_false]
      exact scan_plain hquote hbackslash hcontrol cs

/-- The parts of a printed literal, up to its closing quote. -/
theorem scan_literalChars (cs rest : List Char) :
    scan (cs.flatMap literalChar ++ '"' :: rest) = ⟨cs.map piece, .ok rest⟩ := by
  induction cs with
  | nil => rfl
  | cons c cs ih =>
    rw [List.flatMap_cons, List.append_assoc, scan_literalChar, ih]
    rfl

theorem join_piece (last : Defect) (c : Char) (pieces : List Piece) :
    join last (piece c :: pieces) = (join last pieces).map (c :: ·) := by
  unfold piece
  split
  · next h =>
    -- A control character is no surrogate.
    have htrailing : isTrailing c.toNat = false := by
      simp only [isTrailing, Bool.and_eq_false_iff, decide_eq_false_iff_not]
      omega
    have hleading : isLeading c.toNat = false := by
      simp only [isLeading, Bool.and_eq_false_iff, decide_eq_false_iff_not]
      omega
    rw [join.eq_def]
    simp only [htrailing, hleading, Char.ofNat_toNat, Bool.false_eq_true, if_false]
  · rfl

theorem join_pieces (last : Defect) (cs : List Char) : join last (cs.map piece) = .ok cs := by
  induction cs with
  | nil => rfl
  | cons c cs ih =>
    rw [List.map_cons, join_piece, ih]
    rfl

end Literal

namespace Reader

/-- A printed literal reads back after its opening quote. -/
theorem literal_literalChars (cs rest : List Char) :
    literal (cs.flatMap literalChar ++ '"' :: rest) = .ok (String.ofList cs, rest) := by
  unfold literal
  rw [Literal.scan_literalChars, Literal.read, Literal.join_pieces]
  rfl

end Reader
end ForwardedIp.Json
