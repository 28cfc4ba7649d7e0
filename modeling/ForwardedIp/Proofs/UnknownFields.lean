import Mathlib.Data.List.TakeWhile
import Mathlib.Logic.Relation
import ForwardedIp.Proofs.DocumentPhrases
/-!
# Unknown fields

A record looks for the fields that it knows, wherever they stand, and passes over all others. So
what a document of a known shape is read as depends on the known parts of its phrase only: a field
with a new name may be added anywhere in an object that is read as a record, with any content.
-/
namespace ForwardedIp.Json

/-- Where in a document fields are looked for. -/
inductive Layer where
  /-- A value without fields. -/
  | leaf
  | list (item : Layer)
  | record (fields : List (String × Layer))

/-- A phrase has one unknown field more than another one, or other content in an unknown field. -/
inductive Layer.Adds : Layer → Phrase → Phrase → Prop where
  | inserted {fields : List (String × Layer)} {name : String} (before after : List (Label × Phrase))
      (label : Label) (p : Phrase) (last : Gap)
      (hname : Spelling.meaning? label.name = some name) (hunknown : fields.lookup name = none) :
      Adds (.record fields) (.object (before ++ after) last)
        (.object (before ++ (label, p) :: after) last)
  | ignored {fields : List (String × Layer)} {name : String} (before after : List (Label × Phrase))
      (label : Label) (p p' : Phrase) (last : Gap)
      (hname : Spelling.meaning? label.name = some name) (hunknown : fields.lookup name = none) :
      Adds (.record fields) (.object (before ++ (label, p) :: after) last)
        (.object (before ++ (label, p') :: after) last)
  | within {fields : List (String × Layer)} {layer : Layer} {name : String} {p p' : Phrase}
      (before after : List (Label × Phrase)) (label : Label) (last : Gap)
      (hname : Spelling.meaning? label.name = some name) (hknown : fields.lookup name = some layer)
      (h : Adds layer p p') :
      Adds (.record fields) (.object (before ++ (label, p) :: after) last)
        (.object (before ++ (label, p') :: after) last)
  /-- A record may be written as an array of its fields in order. -/
  | element {fields : List (String × Layer)} {layer : Layer} {name : String} {p p' : Phrase}
      (before after : List (Margins × Phrase)) (margins : Margins) (last : Gap)
      (hfield : fields[before.length]? = some (name, layer)) (h : Adds layer p p') :
      Adds (.record fields) (.array (before ++ (margins, p) :: after) last)
        (.array (before ++ (margins, p') :: after) last)
  | item {layer : Layer} {p p' : Phrase} (before after : List (Margins × Phrase))
      (margins : Margins) (last : Gap) (h : Adds layer p p') :
      Adds (.list layer) (.array (before ++ (margins, p) :: after) last)
        (.array (before ++ (margins, p') :: after) last)

/-- A reader with what it makes of each phrase, in which it passes over unknown fields. -/
structure Sense (layer : Layer) (α : Type) where
  reader : Reader α
  read : Phrase → Option α
  yields : ∀ p, Reader.Yields reader p (read p)
  ignores : ∀ p p', layer.Adds p p' → read p' = read p

namespace Reader
variable {α β σ : Type} {p : Phrase}

theorem toOption_fails {x : Reader α} {f : α → Reader β}
    (hf : ∀ a cs, (f a cs).toOption = none) (cs : List Char) :
    ((x >>= f) cs).toOption = none := by
  show (Except.bind (x cs) _).toOption = none
  cases x cs with
  | error defect => rfl
  | ok found => exact hf found.1 found.2

/-- A reader that wants another kind of value fails. -/
theorem toOption_mismatch (cs : List Char) : ((mismatch : Reader α) cs).toOption = none := by
  refine toOption_fails (fun next cs => ?_) cs
  split
  · rfl
  · rfl
  · exact toOption_fails (fun _ _ => rfl) cs

theorem yields_string (ss : List Spelling) :
    Yields string (.string ss) (Spelling.meaning? ss) := by
  intro gap rest hgap hrest
  unfold string
  rw [Phrase.text, List.cons_append, peeked hgap rfl]
  show (Except.toOption ((advance >>= fun _ => literal) _)) = _
  rw [run_ok (advance_cons _ _), Spelling.literal_literal]

theorem string_mismatch (h : ∀ ss, p ≠ .string ss) : Yields string p none := by
  intro gap rest hgap hrest
  obtain ⟨c, cs, htext, hc⟩ := p.opens
  have hquote : some c ≠ some '"' := fun heq => by
    obtain ⟨ss, rfl⟩ := hc.string (Option.some.inj heq)
    exact h ss rfl
  unfold string
  rw [htext, List.cons_append, peeked hgap hc.gap]
  simp only [toOption_mismatch]
  rfl

theorem list_mismatch {item : Reader α} (h : ∀ items last, p ≠ .array items last) :
    Yields (list item) p none := by
  intro gap rest hgap hrest
  obtain ⟨c, cs, htext, hc⟩ := p.opens
  have hbracket : some c ≠ some '[' := fun heq => by
    obtain ⟨items, last, rfl⟩ := hc.array (Option.some.inj heq)
    exact h items last rfl
  unfold list
  rw [htext, List.cons_append, peeked hgap hc.gap]
  simp only [toOption_mismatch]
  rfl

theorem yields_list {item : Reader α} {read : Phrase → Option α} (h : ∀ p, Yields item p (read p))
    (items : List (Margins × Phrase)) (last : Gap) :
    Yields (list item) (.array items last)
      ((items.foldlM (fun as e => (read e.2).map (· :: as)) []).map List.reverse) := by
  intro gap rest hgap hrest
  have hitems : ∀ e ∈ items, ∀ as : List α, Yields (do return (← item) :: as) e.2
      ((read e.2).map (· :: as)) := by
    intro e _ as gap rest hgap hrest
    rw [toOption_bind (h e.2 gap rest hgap hrest)]
    cases read e.2 <;> rfl
  have hrest' := arrayRest_itemsText (f := fun as p => (read p).map (· :: as)) hitems [] last rest
  unfold list
  rw [Phrase.text, List.cons_append, peeked hgap rfl]
  show (Except.toOption ((advance >>= fun _ => arrayRest _ [] >>= _) _)) = _
  rw [run_ok (advance_cons _ _), toOption_bind hrest']
  cases items.foldlM (fun as e => (read e.2).map (· :: as)) [] <;> rfl

theorem record_mismatch {fields : List (Field σ)} {start : σ}
    (hobject : ∀ members last, p ≠ .object members last)
    (harray : ∀ items last, p ≠ .array items last) :
    Yields (record fields false start) p none := by
  intro gap rest hgap hrest
  obtain ⟨c, cs, htext, hc⟩ := p.opens
  have hbrace : some c ≠ some '\x7b' := fun heq => by
    obtain ⟨members, last, rfl⟩ := hc.object (Option.some.inj heq)
    exact hobject members last rfl
  have hbracket : some c ≠ some '[' := fun heq => by
    obtain ⟨items, last, rfl⟩ := hc.array (Option.some.inj heq)
    exact harray items last rfl
  unfold record
  rw [htext, List.cons_append, peeked hgap hc.gap]
  simp only [toOption_mismatch]
  rfl

end Reader

namespace Sense
variable {α β σ : Type} {layer : Layer}

def string : Sense .leaf String where
  reader := Reader.string
  read
    | .string ss => Spelling.meaning? ss
    | _ => none
  yields p := by
    cases p with
    | string ss => exact Reader.yields_string ss
    | _ => exact Reader.string_mismatch nofun
  ignores _ _ h := nomatch h

def map (f : α → β) (S : Sense layer α) : Sense layer β where
  reader := return f (← S.reader)
  read p := (S.read p).map f
  yields p gap rest hgap hrest := by
    rw [Reader.toOption_bind (S.yields p gap rest hgap hrest)]
    cases S.read p <;> rfl
  ignores p p' h := by rw [S.ignores p p' h]

/-- A value or nothing. -/
def optional (S : Sense .leaf α) : Sense .leaf (Option α) where
  reader := Reader.optional S.reader
  read
    | .null => some none
    | p => (S.read p).map some
  yields p gap rest hgap hrest := by
    unfold Reader.optional
    by_cases hnull : p = .null
    · subst hnull
      have hword := Reader.word_append ['n', 'u', 'l', 'l'] rest
      rw [Phrase.text]
      rw [List.cons_append] at hword ⊢
      rw [Reader.peeked hgap rfl]
      show (Except.toOption ((Reader.word ['n', 'u', 'l', 'l'] >>= fun _ => _) _)) = _
      rw [Reader.run_ok hword]
      rfl
    · obtain ⟨c, cs, htext, hc⟩ := p.opens
      have hother : some c ≠ some 'n' := fun heq => hnull (hc.null (Option.some.inj heq))
      have hread := (S.yields p).next hrest
      rw [htext, List.cons_append] at hread ⊢
      rw [Reader.peeked hgap hc.gap]
      simp only
      rw [Reader.toOption_bind hread]
      cases S.read p <;> rfl
  ignores _ _ h := nomatch h

def list (S : Sense layer α) : Sense (.list layer) (List α) where
  reader := Reader.list S.reader
  read
    | .array items _ =>
        (items.foldlM (fun as e => (S.read e.2).map (· :: as)) []).map List.reverse
    | _ => none
  yields p := by
    cases p with
    | array items last => exact Reader.yields_list S.yields items last
    | _ => exact Reader.list_mismatch nofun
  ignores p p' h := by
    cases h with
    | item before after margins last h =>
      simp only [List.foldlM_append, List.foldlM_cons, S.ignores _ _ h]

end Sense

/-- A field that a record looks for. -/
structure KnownField (σ : Type) where
  name : String
  layer : Layer
  sense : σ → Sense layer σ

namespace KnownField
variable {σ : Type}

def field (f : KnownField σ) : Reader.Field σ := ⟨f.name, fun s => (f.sense s).reader⟩

/-- The layers of known fields. -/
def layers (fields : List (KnownField σ)) : List (String × Layer) :=
  fields.map fun f => (f.name, f.layer)

/-- What a member of an object makes of the names seen and the record read so far. -/
def readMember (fields : List (KnownField σ)) (seen : List String × σ) (name : String)
    (p : Phrase) : Option (List String × σ) :=
  match fields.find? (·.name = name) with
  | none => some seen
  | some f =>
      if seen.1.contains name then none
      else ((f.sense seen.2).read p).map (name :: seen.1, ·)

/-- What the items of an array make of a record, in the order of its fields. -/
def readElements : List (KnownField σ) → List (Margins × Phrase) → σ → Option σ
  | _, [], s => some s
  | [], _ :: _, _ => none
  | f :: fields, e :: items, s => ((f.sense s).read e.2).bind (readElements fields items)

variable {fields : List (KnownField σ)} {name : String}

theorem lookup_layers (fields : List (KnownField σ)) (name : String) :
    (layers fields).lookup name = (fields.find? (·.name = name)).map (·.layer) := by
  induction fields with
  | nil => rfl
  | cons f fields ih =>
    rw [layers, List.map_cons, List.lookup_cons, List.find?_cons, ← layers, ih]
    by_cases heq : f.name = name
    · simp [heq]
    · have hne : (name == f.name) = false := beq_false_of_ne (Ne.symm heq)
      simp [heq, hne]

theorem find?_eq_none (h : (layers fields).lookup name = none) :
    fields.find? (·.name = name) = none := by
  rw [lookup_layers] at h
  exact Option.map_eq_none_iff.mp h

/-- A member is read after its name, or passed over. -/
theorem namedField_member (seen : List String × σ) (name : String) (label : Label) (p : Phrase)
    {rest : List Char} (hrest : Reader.Apart rest) :
    (Reader.namedField (fields.map field) seen name
      (label.between.chars ++ ':' :: (label.lead.chars ++ (p.text ++ rest)))).toOption =
      (readMember fields seen name p).map (·, rest) := by
  have hfind : (fields.map field).find? (·.name = name) =
      (fields.find? (·.name = name)).map field := List.find?_map
  unfold Reader.namedField readMember
  rw [hfind]
  cases fields.find? (·.name = name) with
  | none =>
    show (Except.toOption ((Reader.colon >>= fun _ => Reader.skip >>= _) _)) = _
    rw [Reader.run_ok (Reader.colon_gap _ _),
      Reader.toOption_bind (Reader.yields_skip p _ _ label.lead.blank hrest)]
    rfl
  | some f =>
    cases hseen : seen.1.contains name with
    | true =>
      simp only [Option.map_some, if_true]
      rfl
    | false =>
      have hread := (f.sense seen.2).yields p _ _ label.lead.blank hrest
      simp only [Option.map_some, Bool.false_eq_true, if_false]
      rw [Reader.run_ok (Reader.colon_gap _ _)]
      refine (Reader.toOption_bind hread).trans ?_
      cases (f.sense seen.2).read p <;> rfl

theorem positional_gap {gap : List Char} (hgap : ∀ c ∈ gap, Reader.isGap c = true)
    (fs : List (Reader.Field σ)) (first : Bool) (s : σ) (cs : List Char) :
    Reader.positional false fs first s (gap ++ cs) = Reader.positional false fs first s cs := by
  cases fs with
  | nil => exact Reader.bind_congr (Reader.peek_gap hgap cs)
  | cons f fs => exact Reader.bind_congr (Reader.peek_gap hgap cs)

theorem positional_comma {c : Char} (hc : Reader.isGap c = false) (hbracket : c ≠ ']')
    (f : Reader.Field σ) (fs : List (Reader.Field σ)) (first : Bool) (s : σ) (before : Gap)
    (cs : List Char) :
    Reader.positional false (f :: fs) first s (Phrase.comma first ++ (before.chars ++ c :: cs)) =
      (f.read s >>= Reader.positional false fs false) (c :: cs) := by
  have hnext : some c ≠ some ']' := fun h => hbracket (Option.some.inj h)
  cases first with
  | true =>
    show (Reader.peek >>= _ : Reader σ) (before.chars ++ c :: cs) = _
    rw [Reader.peeked before.blank hc]
    simp only [hnext, if_false]
    rfl
  | false =>
    show (Reader.peek >>= _ : Reader σ) (',' :: (before.chars ++ c :: cs)) = _
    rw [Reader.run_ok (Reader.peek_cons rfl _)]
    show (Reader.advance >>= fun _ => Reader.peek >>= _ : Reader σ) _ = _
    rw [Reader.run_ok (Reader.advance_cons _ _), Reader.peeked before.blank hc]
    simp only [hnext, or_false]
    rfl

theorem positional_extra {c : Char} (hc : Reader.isGap c = false) (hbracket : c ≠ ']')
    (first : Bool) (s : σ) (before : Gap) (cs : List Char) :
    (Reader.positional false [] first s
      (Phrase.comma first ++ (before.chars ++ c :: cs))).toOption = none := by
  have hnext : some c ≠ some ']' := fun h => hbracket (Option.some.inj h)
  cases first with
  | true =>
    show (Except.toOption ((Reader.peek >>= _ : Reader σ) (before.chars ++ c :: cs))) = _
    rw [Reader.peeked before.blank hc]
    simp only [ne_eq, hnext, not_false_eq_true, if_true]
    rfl
  | false => rfl

/-- The items of an array are read as the fields of a record in their order. -/
theorem positional_itemsText (fields : List (KnownField σ)) (items : List (Margins × Phrase))
    (first : Bool) (s : σ) (last : Gap) (rest : List Char) :
    (Reader.positional false (fields.map field) first s
      (Phrase.itemsText first items last ++ rest)).toOption =
      (readElements fields items s).map (·, rest) := by
  induction items generalizing fields first s with
  | nil =>
    rw [Phrase.itemsText, List.append_assoc, List.singleton_append, positional_gap last.blank]
    cases fields <;> rfl
  | cons e items ih =>
    obtain ⟨c, cs, htext, hc⟩ := e.2.opens
    rw [Phrase.itemsText]
    simp only [List.append_assoc]
    cases fields with
    | nil =>
      rw [htext, List.cons_append]
      exact positional_extra hc.gap hc.bracket first s e.1.before _
    | cons f fields =>
      have hread := ((f.sense s).yields e.2).next
        (Reader.apart_itemsText e.1.after items last rest)
      rw [htext, List.cons_append] at hread ⊢
      rw [List.map_cons, positional_comma hc.gap hc.bracket]
      refine (Reader.toOption_bind hread).trans ?_
      rw [readElements]
      cases (f.sense s).read e.2 with
      | none => rfl
      | some s' =>
        refine (congrArg Except.toOption (positional_gap e.1.after.blank _ false s' _)).trans ?_
        exact ih fields false s'

/-- What the members of an object make of the names seen and the record read so far. -/
def readMembers (fields : List (KnownField σ)) (seen : List String × σ)
    (members : List (Label × Phrase)) : Option (List String × σ) :=
  members.foldlM (fun seen e => (Spelling.meaning? e.1.name).bind fun name =>
    readMember fields seen name e.2) seen

def readRecord (fields : List (KnownField σ)) (start : σ) : Phrase → Option σ
  | .object members _ => (readMembers fields ([], start) members).map (·.2)
  | .array items _ => readElements fields items start
  | _ => none

theorem yields_record (fields : List (KnownField σ)) (start : σ) (p : Phrase) :
    Reader.Yields (Reader.record (fields.map field) false start) p
      (readRecord fields start p) := by
  cases p with
  | object members last =>
    intro gap rest hgap hrest
    unfold Reader.record
    have hfield : ∀ e ∈ members, ∀ seen name rest, Reader.Apart rest →
        (Reader.namedField (fields.map field) seen name
          (e.1.between.chars ++ ':' :: (e.1.lead.chars ++ (e.2.text ++ rest)))).toOption =
          (readMember fields seen name e.2).map (·, rest) :=
      fun e _ seen name _ hrest => namedField_member seen name e.1 e.2 hrest
    have hmembers :=
      Reader.objectRest_membersText Spelling.literal_literal hfield ([], start) last rest
    rw [Phrase.text, List.cons_append, Reader.peeked hgap rfl]
    show (Except.toOption ((Reader.advance >>= fun _ => _ : Reader σ) _)) = _
    rw [Reader.run_ok (Reader.advance_cons _ _)]
    refine (Reader.toOption_bind hmembers).trans ?_
    rw [readRecord, ← readMembers]
    cases readMembers fields ([], start) members <;> rfl
  | array items last =>
    intro gap rest hgap hrest
    unfold Reader.record
    rw [Phrase.text, List.cons_append, Reader.peeked hgap rfl]
    show (Except.toOption ((Reader.advance >>= fun _ => _ : Reader σ) _)) = _
    rw [Reader.run_ok (Reader.advance_cons _ _)]
    exact positional_itemsText fields items true start last rest
  | _ => exact Reader.record_mismatch nofun nofun

theorem readMembers_append (seen : List String × σ) (before after : List (Label × Phrase)) :
    readMembers fields seen (before ++ after) =
      (readMembers fields seen before).bind (readMembers fields · after) :=
  List.foldlM_append

theorem readMembers_cons (seen : List String × σ) (label : Label) (p : Phrase)
    (after : List (Label × Phrase)) (hname : Spelling.meaning? label.name = some name) :
    readMembers fields seen ((label, p) :: after) =
      (readMember fields seen name p).bind (readMembers fields · after) := by
  rw [readMembers, List.foldlM_cons, hname]
  rfl

/-- An unknown member leaves everything as it was. -/
theorem readMember_unknown (hunknown : (layers fields).lookup name = none)
    (seen : List String × σ) (p : Phrase) : readMember fields seen name p = some seen := by
  rw [readMember, find?_eq_none hunknown]

theorem readMember_within {layer : Layer} {p p' : Phrase}
    (hknown : (layers fields).lookup name = some layer) (h : layer.Adds p p')
    (seen : List String × σ) :
    readMember fields seen name p' = readMember fields seen name p := by
  rw [lookup_layers] at hknown
  obtain ⟨f, hfound, rfl⟩ := Option.map_eq_some_iff.mp hknown
  unfold readMember
  rw [hfound]
  simp only [(f.sense seen.2).ignores p p' h]

theorem readElements_within {layer : Layer} {p p' : Phrase} (margins : Margins)
    (before after : List (Margins × Phrase))
    (hfield : (layers fields)[before.length]? = some (name, layer)) (h : layer.Adds p p') (s : σ) :
    readElements fields (before ++ (margins, p') :: after) s =
      readElements fields (before ++ (margins, p) :: after) s := by
  induction before generalizing fields s with
  | nil =>
    cases fields with
    | nil => rfl
    | cons f fields =>
      cases hfield
      simp only [List.nil_append, readElements, (f.sense s).ignores p p' h]
  | cons e before ih =>
    cases fields with
    | nil => rfl
    | cons f fields =>
      have hrest : (layers fields)[before.length]? = some (name, layer) := by
        simpa [layers] using hfield
      simp only [List.cons_append, readElements]
      exact congrArg _ (funext (ih hrest))

/-- A record passes over the fields that it does not know. -/
theorem readRecord_ignores (start : σ) {p p' : Phrase}
    (h : (Layer.record (layers fields)).Adds p p') :
    readRecord fields start p' = readRecord fields start p := by
  cases h with
  | inserted before after label p last hname hunknown =>
    simp only [readRecord, readMembers_append, readMembers_cons _ _ _ _ hname,
      readMember_unknown hunknown, Option.bind_some]
  | ignored before after label p p' last hname hunknown =>
    simp only [readRecord, readMembers_append, readMembers_cons _ _ _ _ hname,
      readMember_unknown hunknown]
  | within before after label last hname hknown h =>
    simp only [readRecord, readMembers_append, readMembers_cons _ _ _ _ hname,
      readMember_within hknown h]
  | element before after margins last hfield h =>
    exact readElements_within margins before after hfield h start

end KnownField

namespace Sense
variable {σ : Type}

/-- A record of known fields, starting from its defaults. -/
def record (fields : List (KnownField σ)) (start : σ) :
    Sense (.record (KnownField.layers fields)) σ where
  reader := Reader.record (fields.map KnownField.field) false start
  read := KnownField.readRecord fields start
  yields := KnownField.yields_record fields start
  ignores _ _ h := KnownField.readRecord_ignores start h

variable {layer : Layer} {α : Type} {p p' : Phrase}

/-- A document is read as its phrase is. -/
theorem document (S : Sense layer α) (p : Phrase) (before after : Gap) :
    (Reader.document S.reader (p.document before after)).toOption = S.read p := by
  have hafter : Reader.Apart after.chars := by
    intro c hc
    exact .inl (after.blank c (List.mem_of_mem_head? hc))
  have hread := S.yields p before.chars after.chars before.blank hafter
  have hend : (after.chars.dropWhile Reader.isGap).isEmpty = true := by
    rw [List.isEmpty_iff, List.dropWhile_eq_nil_iff]
    exact after.blank
  unfold Reader.document
  rw [Phrase.document, String.toList_ofList]
  cases hrun : S.reader (before.chars ++ (p.text ++ after.chars)) with
  | error defect =>
    rw [hrun] at hread
    cases hmeaning : S.read p with
    | none => rfl
    | some a =>
      rw [hmeaning] at hread
      cases hread
  | ok found =>
    rw [hrun] at hread
    cases hmeaning : S.read p with
    | none =>
      rw [hmeaning] at hread
      cases hread
    | some a =>
      rw [hmeaning] at hread
      cases hread
      simp only [bind, Except.bind, hend, if_true]
      rfl

/-- Unknown fields do not change what is read. -/
theorem ignores_all (S : Sense layer α) (h : Relation.ReflTransGen layer.Adds p p') :
    S.read p' = S.read p := by
  induction h with
  | refl => rfl
  | tail _ h ih => exact (S.ignores _ _ h).trans ih

end Sense
end ForwardedIp.Json
