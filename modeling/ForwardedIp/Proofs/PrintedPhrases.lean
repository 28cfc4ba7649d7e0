import ForwardedIp.Proofs.DocumentPhrases
/-!
# Printed values are well-formed

In a layout with blank gaps, texts, arrays and objects are printed as phrases: characters are
spelled with the escapes that they need, and the gaps of the layout stand in front of the parts.
-/
namespace ForwardedIp.Json

namespace Spelling

/-- A character as it is printed. -/
def printed (c : Char) : Spelling :=
  match hletter : letterEscape? c with
  | some e => .letter e c (Literal.escaped?_of_letterEscape? hletter).1
  | none =>
      if hcontrol : c.toNat < 0x20 then
        .quad '0' '0' _ _ c.toNat (Literal.ofHex?_control c.toNat hcontrol)
      else
        .plain c ⟨(Literal.ne_of_letterEscape? hletter).1,
          (Literal.ne_of_letterEscape? hletter).2, hcontrol⟩

theorem text_printed (c : Char) : (printed c).text = literalChar c := by
  unfold printed literalChar
  split
  · next e hletter => simp only [text, hletter]
  · next hletter =>
    by_cases hcontrol : c.toNat < 0x20
    · simp only [text, hletter, hcontrol, dif_pos, if_true]
      rfl
    · simp only [text, hletter, hcontrol, dif_neg, not_false_eq_true, if_false]

theorem piece_printed (c : Char) : (printed c).piece = Literal.piece c := by
  unfold printed Literal.piece
  split
  · next e hletter => simp [piece, hletter]
  · next hletter =>
    by_cases hcontrol : c.toNat < 0x20
    · simp only [piece, hletter, hcontrol, dif_pos, Option.isNone_none, and_self, if_true]
    · simp only [piece, hcontrol, dif_neg, not_false_eq_true, and_false, if_false]

/-- A text as it is printed. -/
def ofText (text : String) : List Spelling := text.toList.map printed

theorem literal_ofText (text : String) :
    '"' :: literal (ofText text) = literalChars text.toList := by
  have htexts : Spelling.text ∘ printed = literalChar := funext text_printed
  rw [literal, ofText, List.flatMap_map, literalChars, List.cons_append]
  exact congrArg (fun f => '"' :: (text.toList.flatMap f ++ ['"'])) htexts

theorem meaning?_ofText (text : String) : meaning? (ofText text) = some text := by
  have hpieces : (ofText text).map piece = text.toList.map Literal.piece := by
    rw [ofText, List.map_map]
    exact List.map_congr_left fun c _ => piece_printed c
  rw [meaning?, hpieces, Literal.join_pieces]
  exact congrArg some String.ofList_toList

end Spelling

/-- No blanks. -/
def Gap.none : Gap := ⟨[], nofun⟩

/-- An item without blanks around it. -/
def Margins.none : Margins := ⟨.none, .none⟩

/-- The gap in front of an item of a layout. -/
def Layout.Blank.at {l : Layout} (hl : l.Blank) (depth : Nat) : Gap := ⟨l.gap depth, hl.gap depth⟩

/-- A value that is printed as a phrase, at any depth. -/
def Value.IsPhrase (v : Value) (l : Layout) : Prop :=
  ∀ depth, ∃ p : Phrase, p.text = v.chars l depth

namespace Value
variable {l : Layout}

theorem isPhrase_string (text : String) : (string text).IsPhrase l := by
  intro depth
  exact ⟨.string (Spelling.ofText text), by rw [Phrase.text, chars, Spelling.literal_ofText]⟩

theorem exists_itemsText (hl : l.Blank) {vs : List Value} (h : ∀ v ∈ vs, v.IsPhrase l)
    (depth : Nat) :
    ∃ items, Phrase.itemsText false items (hl.at depth) = itemsChars l depth vs := by
  induction vs with
  | nil => exact ⟨[], by rw [Phrase.itemsText, itemsChars]; rfl⟩
  | cons v vs ih =>
    obtain ⟨hv, hvs⟩ := List.forall_mem_cons.mp h
    obtain ⟨p, hp⟩ := hv (depth + 1)
    obtain ⟨items, hitems⟩ := ih hvs
    refine ⟨(⟨hl.at (depth + 1), .none⟩, p) :: items, ?_⟩
    rw [Phrase.itemsText, hp, hitems, itemsChars]
    rfl

theorem isPhrase_array (hl : l.Blank) {vs : List Value} (h : ∀ v ∈ vs, v.IsPhrase l) :
    (array vs).IsPhrase l := by
  intro depth
  cases vs with
  | nil => exact ⟨.array [] .none, by rw [Phrase.text, Phrase.itemsText, chars]; rfl⟩
  | cons v vs =>
    obtain ⟨hv, hvs⟩ := List.forall_mem_cons.mp h
    obtain ⟨p, hp⟩ := hv (depth + 1)
    obtain ⟨items, hitems⟩ := exists_itemsText hl hvs depth
    refine ⟨.array ((⟨hl.at (depth + 1), .none⟩, p) :: items) (hl.at depth), ?_⟩
    rw [Phrase.text, Phrase.itemsText, hp, hitems, chars]
    rfl

/-- The name of a printed field with the blanks of its layout. -/
def label (hl : l.Blank) (depth : Nat) (name : String) : Label where
  before := hl.at depth
  name := Spelling.ofText name
  between := .none
  lead := ⟨l.colon, hl.colon⟩
  after := .none

theorem exists_membersText (hl : l.Blank) {fs : List (String × Value)}
    (h : ∀ f ∈ fs, f.2.IsPhrase l) (depth : Nat) :
    ∃ members, Phrase.membersText false members (hl.at depth) = fieldsChars l depth fs := by
  induction fs with
  | nil => exact ⟨[], by rw [Phrase.membersText, fieldsChars]; rfl⟩
  | cons f fs ih =>
    obtain ⟨hf, hfs⟩ := List.forall_mem_cons.mp h
    obtain ⟨p, hp⟩ := hf (depth + 1)
    have hname := Spelling.literal_ofText f.1
    obtain ⟨members, hmembers⟩ := ih hfs
    refine ⟨(label hl (depth + 1) f.1, p) :: members, ?_⟩
    rw [Phrase.membersText, hp, hmembers, fieldsChars, ← hname]
    rfl

theorem isPhrase_object (hl : l.Blank) {fs : List (String × Value)}
    (h : ∀ f ∈ fs, f.2.IsPhrase l) : (object fs).IsPhrase l := by
  intro depth
  cases fs with
  | nil => exact ⟨.object [] .none, by rw [Phrase.text, Phrase.membersText, chars]; rfl⟩
  | cons f fs =>
    obtain ⟨hf, hfs⟩ := List.forall_mem_cons.mp h
    obtain ⟨p, hp⟩ := hf (depth + 1)
    have hname := Spelling.literal_ofText f.1
    obtain ⟨members, hmembers⟩ := exists_membersText hl hfs depth
    refine ⟨.object ((label hl (depth + 1) f.1, p) :: members) (hl.at depth), ?_⟩
    rw [Phrase.text, Phrase.membersText, hp, hmembers, chars, ← hname]
    rfl

end Value

/-- The name of a field as it is printed on one line. -/
def Label.bare (name : String) : Label := Value.label Layout.blank_compact 0 name

end ForwardedIp.Json
