import ForwardedIp.Json.Shape
/-!
# What readers give

A reader that folds over the fields of a document keeps whatever each field keeps. So a property of
all that a reader can take is read off its fields, however the text looks.
-/
namespace ForwardedIp.Json.Reader
variable {α β σ κ : Type} {P : α → Prop} {Q : β → Prop}

/-- Whatever a reader takes satisfies a property. -/
def Gives (x : Reader α) (P : α → Prop) : Prop := ∀ cs a rest, x cs = .ok (a, rest) → P a

theorem Gives.bind {x : Reader α} {f : α → Reader β} (hx : Gives x P)
    (hf : ∀ a, P a → Gives (f a) Q) : Gives (x >>= f) Q := by
  intro cs b rest h
  cases ha : x cs with
  | error defect =>
    have hnone : (x >>= f) cs = .error defect := by
      show Except.bind (x cs) _ = _
      rw [ha]
      rfl
    rw [hnone] at h
    cases h
  | ok taken =>
    have hrun : (x >>= f) cs = f taken.1 taken.2 := by
      show Except.bind (x cs) _ = _
      rw [ha]
      rfl
    rw [hrun] at h
    exact hf taken.1 (hx cs taken.1 taken.2 ha) taken.2 b rest h

theorem gives_trivial (x : Reader α) : Gives x fun _ => True := fun _ _ _ _ => trivial

theorem Gives.after {x : Reader α} {f : α → Reader β} (hf : ∀ a, Gives (f a) Q) :
    Gives (x >>= f) Q :=
  (gives_trivial x).bind fun a _ => hf a

theorem Gives.pure {a : α} (h : P a) : Gives (pure a) P := by
  intro cs b rest hb
  cases hb
  exact h

theorem gives_fail (defect : Defect) (P : α → Prop) : Gives (fail defect) P := by
  intro cs a rest h
  cases h

theorem gives_mismatch (P : α → Prop) : Gives mismatch P := by
  refine .after fun next => ?_
  split
  · exact gives_fail _ P
  · exact gives_fail _ P
  · exact .after fun _ => gives_fail _ P

section Folds
variable {Inv : σ → Prop} {field : σ → κ → Reader σ}

theorem gives_members (name : Reader κ) (hfield : ∀ s k, Inv s → Gives (field s k) Inv)
    (fuel : Nat) (first : Bool) {s : σ} (hs : Inv s) :
    Gives (members name field fuel first s) Inv := by
  induction fuel generalizing first s with
  | zero => exact gives_fail _ Inv
  | succ fuel ih =>
    have hquote : Gives (do
        let quote ← peek
        if quote ≠ some '"' then fail (unexpected quote)
        advance
        members name field fuel false (← field s (← name))) Inv := by
      refine .after fun quote => ?_
      split
      · exact .after fun _ => .after fun _ => .after fun k =>
          (hfield s k hs).bind fun s' hs' => ih false hs'
      · exact .after fun _ => .after fun k => (hfield s k hs).bind fun s' hs' => ih false hs'
    unfold members
    refine .after fun next => ?_
    split
    · exact .after fun _ => .pure hs
    · split
      · split
        · exact .after fun _ => .after fun _ => hquote
        · exact .after fun _ => hquote
      · exact hquote

theorem gives_objectRest (name : Reader κ) (hfield : ∀ s k, Inv s → Gives (field s k) Inv) {s : σ}
    (hs : Inv s) : Gives (objectRest name field s) Inv :=
  .after fun fuel => gives_members name hfield fuel true hs

end Folds

/-- A map that is read has every key once, and its values are what the reader of items gives. -/
theorem gives_map {item : Reader α} (hitem : Gives item P) :
    Gives (map item) fun entries => (Keyed.keys entries).Nodup ∧ ∀ e ∈ entries, P e.2 := by
  refine .after fun next => ?_
  split
  · refine .after fun _ => gives_objectRest literal (fun entries key hentries => ?_)
      ⟨List.nodup_nil, by simp⟩
    refine .after fun _ => hitem.bind fun a ha => .pure ⟨Keyed.nodup_keys_put hentries.1 key a, ?_⟩
    intro e he
    rcases Keyed.mem_put he with rfl | he
    · exact ha
    · exact hentries.2 e he
  · exact gives_mismatch _

section Records
variable {Inv : σ → Prop} {fields : List (Field σ)}

theorem gives_namedField (hfields : ∀ field ∈ fields, ∀ s, Inv s → Gives (field.read s) Inv)
    (name : String) {seen : List String × σ} (hs : Inv seen.2) :
    Gives (namedField fields seen name) fun seen => Inv seen.2 := by
  unfold namedField
  split
  · exact .after fun _ => .after fun _ => .pure hs
  · next field hfield =>
    have hmem := List.mem_of_find?_eq_some hfield
    have hread : Gives (do return (name :: seen.1, ← field.read seen.2)) fun seen => Inv seen.2 :=
      (hfields field hmem _ hs).bind fun s' hs' => .pure hs'
    split
    · exact .after fun _ => .after fun _ => hread
    · exact .after fun _ => hread

theorem gives_positional (hfields : ∀ field ∈ fields, ∀ s, Inv s → Gives (field.read s) Inv)
    (demanded first : Bool) {s : σ} (hs : Inv s) :
    Gives (positional demanded fields first s) Inv := by
  induction fields generalizing first s with
  | nil =>
    refine .after fun next => ?_
    split
    · exact .after fun _ => .after fun _ => .pure hs
    · exact .after fun _ => .pure hs
  | cons field fields ih =>
    obtain ⟨hfield, hrest⟩ := List.forall_mem_cons.mp hfields
    have hread : Gives (do positional demanded fields false (← field.read s)) Inv :=
      (hfield s hs).bind fun s' hs' => ih hrest false hs'
    unfold positional
    refine .after fun next => ?_
    split
    · split
      · exact .after fun _ => .after fun _ => .pure hs
      · exact .after fun _ => .pure hs
    · split
      · split
        · refine .after fun _ => .after fun _ => .after fun item => ?_
          split
          · exact .after fun _ => hread
          · exact hread
        · refine .after fun _ => .after fun item => ?_
          split
          · exact .after fun _ => hread
          · exact hread
      · split
        · exact .after fun _ => hread
        · exact hread

/-- A record that is read satisfies what its defaults satisfy and every field keeps. -/
theorem gives_record (hfields : ∀ field ∈ fields, ∀ s, Inv s → Gives (field.read s) Inv)
    (demanded : Bool) {start : σ} (hstart : Inv start) :
    Gives (record fields demanded start) Inv := by
  refine .after fun next => ?_
  split
  · have hmembers : Gives (objectRest literal (namedField fields) ([], start))
        fun seen => Inv seen.2 :=
      gives_objectRest literal (fun seen name hs => gives_namedField hfields name hs) hstart
    refine .after fun _ => hmembers.bind fun ⟨seen, s⟩ hs => ?_
    simp only
    split
    · exact .after fun _ => .pure hs
    · exact .pure hs
  · exact .after fun _ => gives_positional hfields demanded true hstart
  · exact gives_mismatch Inv

end Records

/-- A document that is read satisfies what its reader gives. -/
theorem Gives.document {reader : Reader α} (h : Gives reader P) {text : String} {a : α}
    (hread : document reader text = .ok a) : P a := by
  unfold Reader.document at hread
  cases htaken : reader text.toList with
  | error defect =>
    rw [htaken] at hread
    cases hread
  | ok taken =>
    rw [htaken] at hread
    simp only [Bind.bind, Except.bind] at hread
    split at hread
    · cases hread
      exact h _ _ _ htaken
    · cases hread

end ForwardedIp.Json.Reader
