import ForwardedIp.Proofs.SpelledTokens
/-!
# Well-formed documents

A phrase is a JSON value as it is written, with blanks of any kind between its parts. A reader that
passes over a value passes over every phrase, however deep it is, and stops where the phrase ends.
-/
namespace ForwardedIp.Json

/-- The blanks around an item of an array. -/
structure Margins where
  before : Gap
  after : Gap

/-- The name of a field of an object, and the blanks around it, its colon and its value. -/
structure Label where
  before : Gap
  name : List Spelling
  between : Gap
  lead : Gap
  after : Gap

/-- A value as it is written. The last gap stands in front of a closing bracket. -/
inductive Phrase where
  | null
  | bool (b : Bool)
  | number (n : NumberSpelling)
  | string (text : List Spelling)
  | array (items : List (Margins × Phrase)) (last : Gap)
  | object (members : List (Label × Phrase)) (last : Gap)

namespace Phrase

/-- The comma in front of every part but the first one. -/
def comma (first : Bool) : List Char := if first then [] else [',']

mutual

def text : Phrase → List Char
  | null => ['n', 'u', 'l', 'l']
  | bool true => ['t', 'r', 'u', 'e']
  | bool false => ['f', 'a', 'l', 's', 'e']
  | number n => n.text
  | string ss => '"' :: Spelling.literal ss
  | array items last => '[' :: itemsText true items last
  | object members last => '\x7b' :: membersText true members last

/-- The items of an array and its closing bracket. -/
def itemsText (first : Bool) : List (Margins × Phrase) → Gap → List Char
  | [], last => last.chars ++ [']']
  | (m, p) :: rest, last =>
      comma first ++ (m.before.chars ++ (text p ++ (m.after.chars ++ itemsText false rest last)))

/-- The members of an object and its closing brace. -/
def membersText (first : Bool) : List (Label × Phrase) → Gap → List Char
  | [], last => last.chars ++ ['\x7d']
  | (m, p) :: rest, last =>
      comma first ++ (m.before.chars ++ '"' :: (Spelling.literal m.name ++
        (m.between.chars ++ ':' :: (m.lead.chars ++ (text p ++
          (m.after.chars ++ membersText false rest last))))))

end

/-- A document of one phrase, with blanks around it. -/
def document (p : Phrase) (before after : Gap) : String :=
  String.ofList (before.chars ++ (p.text ++ after.chars))

/-- The first character of a phrase tells its kind. -/
structure Opens (p : Phrase) (c : Char) : Prop where
  gap : Reader.isGap c = false
  bracket : c ≠ ']'
  null : c = 'n' → p = .null
  string : c = '"' → ∃ ss, p = .string ss
  array : c = '[' → ∃ items last, p = .array items last
  object : c = '\x7b' → ∃ members last, p = .object members last

theorem opens (p : Phrase) : ∃ c cs, p.text = c :: cs ∧ p.Opens c := by
  cases p with
  | null => exact ⟨'n', _, rfl, rfl, by decide, fun _ => rfl, nofun, nofun, nofun⟩
  | bool b => cases b <;> exact ⟨_, _, rfl, rfl, by decide, nofun, nofun, nofun, nofun⟩
  | number n =>
    obtain ⟨c, cs, htext, hstarts⟩ := n.opens
    obtain ⟨hn, -, -, hquote, hbracket, hbrace⟩ := Reader.ne_of_startsNumber hstarts
    have hclosing : c ≠ ']' := by
      rintro rfl
      cases hstarts
    exact ⟨c, cs, by rw [text, htext], Reader.isGap_of_startsNumber hstarts, hclosing,
      (absurd · hn), (absurd · hquote), (absurd · hbracket), (absurd · hbrace)⟩
  | string ss =>
    exact ⟨'"', _, by rw [text], rfl, by decide, nofun, fun _ => ⟨ss, rfl⟩, nofun, nofun⟩
  | array items last =>
    exact ⟨'[', _, by rw [text], rfl, by decide, nofun, nofun, fun _ => ⟨items, last, rfl⟩, nofun⟩
  | object members last =>
    exact ⟨'\x7b', _, by rw [text], rfl, by decide, nofun, nofun, nofun,
      fun _ => ⟨members, last, rfl⟩⟩

theorem length_lt_length_itemsText (first : Bool) (items : List (Margins × Phrase)) (last : Gap) :
    items.length < (itemsText first items last).length := by
  induction items generalizing first with
  | nil => simp [itemsText]
  | cons e items ih =>
    have hopens : 0 < e.2.text.length := by
      obtain ⟨c, cs, htext, -⟩ := e.2.opens
      simp [htext]
    have hrest := ih false
    simp only [itemsText, List.length_append, List.length_cons]
    omega

theorem length_lt_length_membersText (first : Bool) (members : List (Label × Phrase))
    (last : Gap) : members.length < (membersText first members last).length := by
  induction members generalizing first with
  | nil => simp [membersText]
  | cons e members ih =>
    have hrest := ih false
    simp only [membersText, List.length_append, List.length_cons]
    omega

theorem length_item {e : Margins × Phrase} {items : List (Margins × Phrase)} (he : e ∈ items)
    (first : Bool) (last : Gap) : e.2.text.length < (itemsText first items last).length := by
  induction items generalizing first with
  | nil => cases he
  | cons e' items ih =>
    have hrest := length_lt_length_itemsText false items last
    simp only [itemsText, List.length_append]
    rcases List.mem_cons.mp he with rfl | he
    · omega
    · have hitem := ih he false
      omega

theorem length_member {e : Label × Phrase} {members : List (Label × Phrase)} (he : e ∈ members)
    (first : Bool) (last : Gap) : e.2.text.length < (membersText first members last).length := by
  induction members generalizing first with
  | nil => cases he
  | cons e' members ih =>
    simp only [membersText, List.length_append, List.length_cons]
    rcases List.mem_cons.mp he with rfl | he
    · omega
    · have hmember := ih he false
      omega

end Phrase

theorem Gap.blank_append {gap : List Char} (hgap : ∀ c ∈ gap, Reader.isGap c = true) (g : Gap) :
    ∀ c ∈ gap ++ g.chars, Reader.isGap c = true := by
  intro c hc
  rcases List.mem_append.mp hc with hc | hc
  · exact hgap c hc
  · exact g.blank c hc

namespace Reader
variable {α β σ κ : Type}

/-- What a reader makes of a phrase, wherever the phrase stands, or nothing if it fails there. -/
def Yields (r : Reader α) (p : Phrase) (a : Option α) : Prop :=
  ∀ gap rest, (∀ c ∈ gap, isGap c = true) → Apart rest →
    (r (gap ++ (p.text ++ rest))).toOption = a.map (·, rest)

theorem toOption_bind {x : Reader α} {f : α → Reader β} {cs rest : List Char} {a : Option α}
    (h : (x cs).toOption = a.map (·, rest)) :
    ((x >>= f) cs).toOption = a.bind fun a => (f a rest).toOption := by
  show (Except.bind (x cs) _).toOption = _
  cases hx : x cs with
  | error defect =>
    rw [hx] at h
    cases a with
    | none => rfl
    | some a => cases h
  | ok found =>
    rw [hx] at h
    cases a with
    | none => cases h
    | some a =>
      cases h
      rfl

theorem Yields.next {r : Reader α} {p : Phrase} {a : Option α} (h : Yields r p a)
    {rest : List Char} (hrest : Apart rest) :
    (r (p.text ++ rest)).toOption = a.map (·, rest) :=
  h [] rest isGap_of_mem_nil hrest

theorem apart_itemsText (gap : Gap) (items : List (Margins × Phrase)) (last : Gap)
    (rest : List Char) : Apart (gap.chars ++ (Phrase.itemsText false items last ++ rest)) := by
  cases items with
  | nil =>
    rw [Phrase.itemsText, List.append_assoc, ← List.append_assoc]
    exact apart_gap (Gap.blank_append gap.blank last) (by simp) rest
  | cons e items =>
    rw [Phrase.itemsText]
    exact apart_gap gap.blank (.inl rfl) _

theorem apart_membersText (gap : Gap) (members : List (Label × Phrase)) (last : Gap)
    (rest : List Char) : Apart (gap.chars ++ (Phrase.membersText false members last ++ rest)) := by
  cases members with
  | nil =>
    rw [Phrase.membersText, List.append_assoc, ← List.append_assoc]
    exact apart_gap (Gap.blank_append gap.blank last) (by simp) rest
  | cons e members =>
    rw [Phrase.membersText]
    exact apart_gap gap.blank (.inl rfl) _

theorem bind_congr {x : Reader α} {f : α → Reader β} {cs cs' : List Char} (h : x cs = x cs') :
    (x >>= f) cs = (x >>= f) cs' := by
  show Except.bind (x cs) _ = _
  rw [h]
  rfl

section Loops
variable {fuel : Nat} {s : σ} {gap : List Char} {item : σ → Reader σ} {name : Reader κ}
  {field : σ → κ → Reader σ}

theorem items_gap (hgap : ∀ c ∈ gap, isGap c = true) (first : Bool) (cs : List Char) :
    items item (fuel + 1) first s (gap ++ cs) = items item (fuel + 1) first s cs := by
  rw [items]
  exact bind_congr (peek_gap hgap cs)

theorem members_gap (hgap : ∀ c ∈ gap, isGap c = true) (first : Bool) (cs : List Char) :
    members name field (fuel + 1) first s (gap ++ cs) =
      members name field (fuel + 1) first s cs := by
  rw [members]
  exact bind_congr (peek_gap hgap cs)

theorem items_comma (first : Bool) (before : Gap) {c : Char} (hc : isGap c = false)
    (hbracket : c ≠ ']') (cs : List Char) :
    items item (fuel + 1) first s (Phrase.comma first ++ (before.chars ++ c :: cs)) =
      (item s >>= items item fuel false) (c :: cs) := by
  cases first with
  | true => exact items_first before.blank hc hbracket cs
  | false => exact items_next before.blank hc hbracket cs

theorem members_comma (first : Bool) (before : Gap) (cs : List Char) :
    members name field (fuel + 1) first s (Phrase.comma first ++ (before.chars ++ '"' :: cs)) =
      (name >>= fun key => field s key >>= members name field fuel false) cs := by
  cases first with
  | true => exact members_first before.blank cs
  | false => exact members_next before.blank cs

end Loops

/-- The items of an array are read one after the other. -/
theorem items_itemsText {item : σ → Reader σ} {f : σ → Phrase → Option σ}
    {items : List (Margins × Phrase)} (hitem : ∀ e ∈ items, ∀ s, Yields (item s) e.2 (f s e.2))
    {fuel : Nat} (hfuel : items.length < fuel) (first : Bool) (s : σ) (last : Gap)
    (rest : List Char) :
    (Reader.items item fuel first s (Phrase.itemsText first items last ++ rest)).toOption =
      (items.foldlM (fun s e => f s e.2) s).map (·, ']' :: rest) := by
  induction items generalizing fuel first s with
  | nil =>
    obtain ⟨fuel, rfl⟩ := Nat.exists_eq_add_one_of_ne_zero (Nat.ne_zero_of_lt hfuel)
    rw [Phrase.itemsText, List.append_assoc, List.singleton_append, items_end last.blank]
    rfl
  | cons e items ih =>
    obtain ⟨fuel, rfl⟩ := Nat.exists_eq_add_one_of_ne_zero (Nat.ne_zero_of_lt hfuel)
    have hfuel' : items.length < fuel := Nat.lt_of_succ_lt_succ hfuel
    obtain ⟨hfirst, hitems⟩ := List.forall_mem_cons.mp hitem
    obtain ⟨c, cs, hopens, hc⟩ := e.2.opens
    have hread := (hfirst s).next (apart_itemsText e.1.after items last rest)
    rw [Phrase.itemsText]
    simp only [List.append_assoc]
    rw [hopens, List.cons_append] at hread ⊢
    rw [items_comma first e.1.before hc.gap hc.bracket, toOption_bind hread, List.foldlM_cons]
    cases f s e.2 with
    | none => rfl
    | some s' =>
      obtain ⟨fuel, rfl⟩ := Nat.exists_eq_add_one_of_ne_zero (Nat.ne_zero_of_lt hfuel')
      refine (congrArg Except.toOption (items_gap e.1.after.blank false _)).trans ?_
      exact ih hitems hfuel' false s'

/-- The members of an object are read one after the other, each after its name. -/
theorem members_membersText {name : Reader κ} {field : σ → κ → Reader σ}
    {g : List Spelling → Option κ} {f : σ → κ → Phrase → Option σ}
    {members : List (Label × Phrase)}
    (hname : ∀ ss rest, (name (Spelling.literal ss ++ rest)).toOption = (g ss).map (·, rest))
    (hfield : ∀ e ∈ members, ∀ s k rest, Apart rest →
      (field s k (e.1.between.chars ++ ':' :: (e.1.lead.chars ++ (e.2.text ++ rest)))).toOption =
        (f s k e.2).map (·, rest))
    {fuel : Nat} (hfuel : members.length < fuel) (first : Bool) (s : σ) (last : Gap)
    (rest : List Char) :
    (Reader.members name field fuel first s
        (Phrase.membersText first members last ++ rest)).toOption =
      (members.foldlM (fun s e => (g e.1.name).bind fun k => f s k e.2) s).map (·, rest) := by
  induction members generalizing fuel first s with
  | nil =>
    obtain ⟨fuel, rfl⟩ := Nat.exists_eq_add_one_of_ne_zero (Nat.ne_zero_of_lt hfuel)
    rw [Phrase.membersText, List.append_assoc, List.singleton_append, members_end last.blank]
    rfl
  | cons e members ih =>
    obtain ⟨fuel, rfl⟩ := Nat.exists_eq_add_one_of_ne_zero (Nat.ne_zero_of_lt hfuel)
    have hfuel' : members.length < fuel := Nat.lt_of_succ_lt_succ hfuel
    obtain ⟨hfirst, hmembers⟩ := List.forall_mem_cons.mp hfield
    rw [Phrase.membersText]
    simp only [List.append_assoc, List.cons_append]
    rw [members_comma first e.1.before, toOption_bind (hname e.1.name _), List.foldlM_cons]
    cases g e.1.name with
    | none => rfl
    | some k =>
      have hread := hfirst s k _ (apart_membersText e.1.after members last rest)
      show (Except.toOption ((field s k >>= _) _)) = _
      rw [toOption_bind hread]
      show _ = Option.map _ ((f s k e.2).bind _)
      cases f s k e.2 with
      | none => rfl
      | some s' =>
        obtain ⟨fuel, rfl⟩ := Nat.exists_eq_add_one_of_ne_zero (Nat.ne_zero_of_lt hfuel')
        refine (congrArg Except.toOption (members_gap e.1.after.blank false _)).trans ?_
        exact ih hmembers hfuel' false s'

theorem arrayRest_itemsText {item : σ → Reader σ} {f : σ → Phrase → Option σ}
    {items : List (Margins × Phrase)} (hitem : ∀ e ∈ items, ∀ s, Yields (item s) e.2 (f s e.2))
    (s : σ) (last : Gap) (rest : List Char) :
    (arrayRest item s (Phrase.itemsText true items last ++ rest)).toOption =
      (items.foldlM (fun s e => f s e.2) s).map (·, rest) := by
  have hfuel : items.length < (Phrase.itemsText true items last ++ rest).length + 1 := by
    have hlength := Phrase.length_lt_length_itemsText true items last
    rw [List.length_append]
    omega
  unfold arrayRest
  rw [run_ok (fuel_run _), toOption_bind (items_itemsText hitem hfuel true s last rest)]
  cases items.foldlM (fun s e => f s e.2) s <;> rfl

theorem objectRest_membersText {name : Reader κ} {field : σ → κ → Reader σ}
    {g : List Spelling → Option κ} {f : σ → κ → Phrase → Option σ}
    {members : List (Label × Phrase)}
    (hname : ∀ ss rest, (name (Spelling.literal ss ++ rest)).toOption = (g ss).map (·, rest))
    (hfield : ∀ e ∈ members, ∀ s k rest, Apart rest →
      (field s k (e.1.between.chars ++ ':' :: (e.1.lead.chars ++ (e.2.text ++ rest)))).toOption =
        (f s k e.2).map (·, rest))
    (s : σ) (last : Gap) (rest : List Char) :
    (objectRest name field s (Phrase.membersText true members last ++ rest)).toOption =
      (members.foldlM (fun s e => (g e.1.name).bind fun k => f s k e.2) s).map (·, rest) := by
  have hfuel : members.length < (Phrase.membersText true members last ++ rest).length + 1 := by
    have hlength := Phrase.length_lt_length_membersText true members last
    rw [List.length_append]
    omega
  unfold objectRest
  rw [run_ok (fuel_run _)]
  exact members_membersText hname hfield hfuel true s last rest

theorem colon_gap (g : Gap) (cs : List Char) : colon (g.chars ++ ':' :: cs) = .ok ((), cs) := by
  unfold colon
  rw [run_ok (peek_gap_cons g.blank rfl cs)]
  rfl

theorem word_append (w rest : List Char) : word w (w ++ rest) = .ok ((), rest) := by
  induction w with
  | nil => rfl
  | cons c w ih =>
    simp only [word, List.cons_append, if_true]
    exact ih

/-- What follows on a first character, after the gap in front of it. -/
theorem peeked {f : Option Char → Reader β} {gap cs : List Char} {c : Char}
    (hgap : ∀ c ∈ gap, isGap c = true) (hc : isGap c = false) :
    (peek >>= f) (gap ++ c :: cs) = f (some c) (c :: cs) := run_ok (peek_gap_cons hgap hc cs)

theorem foldlM_some {ε : Type} (es : List ε) :
    es.foldlM (fun (_ : Unit) (_ : ε) => (some () : Option Unit)) () = some () := by
  induction es with
  | nil => rfl
  | cons e es ih => exact ih

theorem yields_skipWithin_array {depth : Nat} {items : List (Margins × Phrase)}
    (h : ∀ e ∈ items, Yields (skipWithin depth) e.2 (some ())) (last : Gap) :
    Yields (skipWithin (depth + 1)) (.array items last) (some ()) := by
  intro gap rest hgap hrest
  have hitems : ∀ e ∈ items, ∀ s : Unit, Yields ((fun _ => skipWithin depth) s) e.2
      ((fun (_ : Unit) (_ : Phrase) => some ()) s e.2) := fun e he _ => h e he
  unfold skipWithin
  rw [Phrase.text, List.cons_append, peeked hgap rfl]
  show (Except.toOption ((advance >>= fun _ => arrayRest _ ()) _)) = _
  rw [run_ok (advance_cons _ _),
    arrayRest_itemsText (f := fun _ _ => some ()) hitems () last rest]
  exact congrArg (Option.map _) (foldlM_some items)

theorem yields_skipWithin_object {depth : Nat} {members : List (Label × Phrase)}
    (h : ∀ e ∈ members, Yields (skipWithin depth) e.2 (some ())) (last : Gap) :
    Yields (skipWithin (depth + 1)) (.object members last) (some ()) := by
  intro gap rest hgap hrest
  have hmembers : ∀ e ∈ members, ∀ (s k : Unit) rest, Apart rest →
      ((colon >>= fun _ => skipWithin depth : Reader Unit) (e.1.between.chars ++ ':' ::
        (e.1.lead.chars ++ (e.2.text ++ rest)))).toOption =
      ((fun (_ _ : Unit) (_ : Phrase) => some ()) s k e.2).map (·, rest) := by
    intro e he _ _ rest hrest
    rw [run_ok (colon_gap _ _)]
    exact h e he _ _ e.1.lead.blank hrest
  have hname (ss : List Spelling) (rest : List Char) :
      (skipLiteral (Spelling.literal ss ++ rest)).toOption = (some ()).map (·, rest) :=
    congrArg Except.toOption (Spelling.skipLiteral_literal ss rest)
  unfold skipWithin
  rw [Phrase.text, List.cons_append, peeked hgap rfl]
  show (Except.toOption ((advance >>= fun _ => objectRest skipLiteral _ ()) _)) = _
  rw [run_ok (advance_cons _ _),
    objectRest_membersText (f := fun _ _ _ => some ()) hname hmembers () last rest]
  exact congrArg (Option.map _) (foldlM_some members)

/-- A value without parts is passed over, whatever depth is left. -/
theorem yields_skipWithin_scalar (depth : Nat) {p : Phrase}
    (harray : ∀ items last, p ≠ .array items last)
    (hobject : ∀ members last, p ≠ .object members last) :
    Yields (skipWithin (depth + 1)) p (some ()) := by
  intro gap rest hgap hrest
  unfold skipWithin
  cases p with
  | null =>
    rw [Phrase.text, List.cons_append, peeked hgap rfl]
    exact congrArg Except.toOption (word_append ['n', 'u', 'l', 'l'] rest)
  | bool b =>
    cases b with
    | true =>
      rw [Phrase.text, List.cons_append, peeked hgap rfl]
      exact congrArg Except.toOption (word_append ['t', 'r', 'u', 'e'] rest)
    | false =>
      rw [Phrase.text, List.cons_append, peeked hgap rfl]
      exact congrArg Except.toOption (word_append ['f', 'a', 'l', 's', 'e'] rest)
  | number n =>
    obtain ⟨c, cs, htext, hstarts⟩ := n.opens
    have hscan := n.scan_text hrest false
    rw [Phrase.text]
    rw [htext, List.cons_append] at hscan ⊢
    rw [peeked hgap (isGap_of_startsNumber hstarts)]
    obtain ⟨hn, ht, hf, hquote, hbracket, hbrace⟩ := ne_of_startsNumber hstarts
    simp only [hstarts, if_true, skipNumber, hscan]
    rfl
  | string ss =>
    rw [Phrase.text, List.cons_append, peeked hgap rfl]
    show (Except.toOption ((advance >>= fun _ => skipLiteral) _)) = _
    rw [run_ok (advance_cons _ _), Spelling.skipLiteral_literal]
    rfl
  | array items last => exact absurd rfl (harray items last)
  | object members last => exact absurd rfl (hobject members last)

/-- A value that is passed over ends where its phrase does. -/
theorem yields_skipWithin (depth : Nat) (p : Phrase) (h : p.text.length < depth) :
    Yields (skipWithin depth) p (some ()) := by
  induction depth generalizing p with
  | zero => exact absurd h (Nat.not_lt_zero _)
  | succ depth ih =>
    cases p with
    | array items last =>
      refine yields_skipWithin_array (fun e he => ih e.2 ?_) last
      have hlength := Phrase.length_item he true last
      rw [Phrase.text, List.length_cons] at h
      omega
    | object members last =>
      refine yields_skipWithin_object (fun e he => ih e.2 ?_) last
      have hlength := Phrase.length_member he true last
      rw [Phrase.text, List.length_cons] at h
      omega
    | _ => exact yields_skipWithin_scalar depth nofun nofun

/-- A value of any depth is passed over. -/
theorem yields_skip (p : Phrase) : Yields skip p (some ()) := by
  intro gap rest hgap hrest
  have hlength : p.text.length < (gap ++ (p.text ++ rest)).length + 1 := by
    simp only [List.length_append]
    omega
  unfold skip
  rw [run_ok (fuel_run _)]
  exact yields_skipWithin _ p hlength gap rest hgap hrest

end Reader
end ForwardedIp.Json
