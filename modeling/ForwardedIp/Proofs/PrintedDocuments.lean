import ForwardedIp.Json.Printer
import ForwardedIp.Json.Shape
import ForwardedIp.Proofs.PrintedLiterals
/-!
# Printed documents

What a reader takes from a printed value does not depend on what follows the value, as long as a
document goes on there. So texts, lists, maps and records are read back from their printed form
part by part, with blanks in every gap of the layout.
-/
namespace ForwardedIp.Json

/-- The gaps of a layout are blank. -/
structure Layout.Blank (l : Layout) : Prop where
  gap : ∀ depth, ∀ c ∈ l.gap depth, Reader.isGap c = true
  colon : ∀ c ∈ l.colon, Reader.isGap c = true

theorem Layout.blank_compact : Layout.compact.Blank where
  gap _ _ hc := nomatch hc
  colon _ hc := nomatch hc

theorem Layout.blank_indented : Layout.indented.Blank where
  gap depth c hc := by
    rcases List.mem_cons.mp hc with rfl | hc
    · rfl
    · rw [List.eq_of_mem_replicate hc]
      rfl
  colon c hc := by
    rw [List.mem_singleton.mp hc]
    rfl

namespace Value

/-- An array after its bracket. -/
def arrayBody (l : Layout) (depth : Nat) : List Value → List Char
  | [] => [']']
  | v :: vs => l.gap (depth + 1) ++ (v.chars l (depth + 1) ++ itemsChars l depth vs)

/-- An object after its brace. -/
def objectBody (l : Layout) (depth : Nat) : List (String × Value) → List Char
  | [] => ['\x7d']
  | (name, v) :: fs =>
      l.gap (depth + 1) ++ (literalChars name.toList ++ ':' :: (l.colon ++
        (v.chars l (depth + 1) ++ fieldsChars l depth fs)))

variable {l : Layout} {depth : Nat}

theorem chars_array (vs : List Value) :
    (array vs).chars l depth = '[' :: arrayBody l depth vs := by
  cases vs <;> simp [chars, arrayBody]

theorem chars_object (fs : List (String × Value)) :
    (object fs).chars l depth = '\x7b' :: objectBody l depth fs := by
  cases fs <;> simp [chars, objectBody]

theorem length_lt_length_itemsChars (l : Layout) (depth : Nat) (vs : List Value) :
    vs.length < (itemsChars l depth vs).length := by
  induction vs with
  | nil => simp [itemsChars]
  | cons v vs ih =>
    simp only [itemsChars, List.length_cons, List.length_append]
    omega

theorem length_lt_length_fieldsChars (l : Layout) (depth : Nat) (fs : List (String × Value)) :
    fs.length < (fieldsChars l depth fs).length := by
  induction fs with
  | nil => simp [fieldsChars]
  | cons f fs ih =>
    simp only [fieldsChars, List.length_cons, List.length_append]
    omega

theorem length_le_length_arrayBody (l : Layout) (depth : Nat) (vs : List Value) :
    vs.length ≤ (arrayBody l depth vs).length := by
  cases vs with
  | nil => simp
  | cons v vs =>
    have htail := length_lt_length_itemsChars l depth vs
    simp only [arrayBody, List.length_cons, List.length_append]
    omega

theorem length_le_length_objectBody (l : Layout) (depth : Nat) (fs : List (String × Value)) :
    fs.length ≤ (objectBody l depth fs).length := by
  cases fs with
  | nil => simp
  | cons f fs =>
    have htail := length_lt_length_fieldsChars l depth fs
    simp only [objectBody, List.length_cons, List.length_append]
    omega

end Value

namespace Reader
variable {α β σ : Type}

theorem run_ok {x : Reader α} {f : α → Reader β} {cs cs' : List Char} {a : α}
    (h : x cs = .ok (a, cs')) : (x >>= f) cs = f a cs' := by
  show Except.bind (x cs) _ = _
  rw [h]
  rfl

theorem peek_cons {c : Char} (hc : isGap c = false) (cs : List Char) :
    peek (c :: cs) = .ok (some c, c :: cs) := by
  simp [peek, hc]

theorem peek_gap {gap : List Char} (hgap : ∀ c ∈ gap, isGap c = true) (cs : List Char) :
    peek (gap ++ cs) = peek cs := by
  simp only [peek, List.dropWhile_append_of_pos hgap]

theorem peek_gap_cons {gap : List Char} {c : Char} (hgap : ∀ c ∈ gap, isGap c = true)
    (hc : isGap c = false) (cs : List Char) : peek (gap ++ c :: cs) = .ok (some c, c :: cs) := by
  rw [peek_gap hgap, peek_cons hc]

theorem advance_cons (c : Char) (cs : List Char) : advance (c :: cs) = .ok ((), cs) := rfl

theorem colon_cons (cs : List Char) : colon (':' :: cs) = .ok ((), cs) := rfl

theorem isGap_of_mem_nil : ∀ c ∈ ([] : List Char), isGap c = true := by simp

/-- A text after which a value has come to its end. -/
def Apart (rest : List Char) : Prop :=
  ∀ c, rest.head? = some c → isGap c = true ∨ c = ',' ∨ c = ']' ∨ c = '\x7d'

theorem apart_nil : Apart [] := by
  intro c h
  cases h

theorem apart_gap {gap : List Char} {c : Char} (hgap : ∀ c ∈ gap, isGap c = true)
    (hc : c = ',' ∨ c = ']' ∨ c = '\x7d') (cs : List Char) : Apart (gap ++ c :: cs) := by
  intro d hd
  cases gap with
  | nil =>
    cases hd
    exact .inr hc
  | cons g gap =>
    cases hd
    exact .inl (hgap _ List.mem_cons_self)

theorem apart_cons {c : Char} (hc : c = ',' ∨ c = ']' ∨ c = '\x7d') (cs : List Char) :
    Apart (c :: cs) :=
  apart_gap isGap_of_mem_nil hc cs

/-- A reader takes a text as a value: it skips the gap in front and stops where the text ends. -/
structure Takes (reader : Reader α) (text : List Char) (a : α) : Prop where
  opens : ∃ c cs, text = c :: cs ∧ isGap c = false ∧ c ≠ ']'
  run : ∀ gap rest, (∀ c ∈ gap, isGap c = true) → Apart rest →
    reader (gap ++ (text ++ rest)) = .ok (a, rest)

theorem Takes.next {reader : Reader α} {text : List Char} {a : α} (h : Takes reader text a)
    {rest : List Char} (hrest : Apart rest) : reader (text ++ rest) = .ok (a, rest) :=
  h.run [] rest isGap_of_mem_nil hrest

/-- What is taken may be worked on. -/
theorem Takes.returning {reader : Reader α} {text : List Char} {a : α} (h : Takes reader text a)
    (f : α → β) : Takes (do return f (← reader)) text (f a) :=
  ⟨h.opens, fun gap rest hgap hrest => run_ok (h.run gap rest hgap hrest)⟩

theorem takes_string (text : String) : Takes string (literalChars text.toList) text where
  opens := ⟨'"', _, rfl, rfl, by decide⟩
  run gap rest hgap hrest := by
    unfold string
    have hopen : literalChars text.toList ++ rest =
        '"' :: (text.toList.flatMap literalChar ++ '"' :: rest) := by simp [literalChars]
    rw [hopen, run_ok (peek_gap_cons hgap rfl _)]
    simp only
    rw [run_ok (advance_cons _ _), literal_literalChars, String.ofList_toList]

theorem takes_text {l : Layout} {depth : Nat} (text : String) :
    Takes string ((Value.string text).chars l depth) text := by
  rw [Value.chars]
  exact takes_string text

/-- Items are taken one by one, each with the state that the ones before it left. -/
inductive Gathers (item : σ → Reader σ) (l : Layout) (depth : Nat) : σ → List Value → σ → Prop where
  | nil (s : σ) : Gathers item l depth s [] s
  | cons {s s₁ s' : σ} {v : Value} {vs : List Value}
      (first : Takes (item s) (v.chars l (depth + 1)) s₁) (rest : Gathers item l depth s₁ vs s') :
      Gathers item l depth s (v :: vs) s'

/-- Fields are taken one by one after their names. -/
inductive Completes (field : σ → String → Reader σ) (l : Layout) (depth : Nat) :
    σ → List (String × Value) → σ → Prop where
  | nil (s : σ) : Completes field l depth s [] s
  | cons {s s₁ s' : σ} {name : String} {v : Value} {fs : List (String × Value)}
      (first : ∀ rest, Apart rest →
        field s name (':' :: (l.colon ++ (v.chars l (depth + 1) ++ rest))) = .ok (s₁, rest))
      (rest : Completes field l depth s₁ fs s') : Completes field l depth s ((name, v) :: fs) s'

section Steps
variable {κ : Type} {gap : List Char} {c : Char} {fuel : Nat} {s : σ} {item : σ → Reader σ}
  {name : Reader κ} {field : σ → κ → Reader σ}

theorem items_end (hgap : ∀ c ∈ gap, isGap c = true) (first : Bool) (rest : List Char) :
    items item (fuel + 1) first s (gap ++ ']' :: rest) = .ok (s, ']' :: rest) := by
  rw [items, run_ok (peek_gap_cons hgap rfl rest)]
  rfl

theorem items_first (hgap : ∀ c ∈ gap, isGap c = true) (hc : isGap c = false) (hend : c ≠ ']')
    (cs : List Char) : items item (fuel + 1) true s (gap ++ c :: cs) =
      (item s >>= items item fuel false) (c :: cs) := by
  rw [items, run_ok (peek_gap_cons hgap hc cs)]
  simp only [if_true]

theorem items_next (hgap : ∀ c ∈ gap, isGap c = true) (hc : isGap c = false) (hend : c ≠ ']')
    (cs : List Char) : items item (fuel + 1) false s (',' :: (gap ++ c :: cs)) =
      (item s >>= items item fuel false) (c :: cs) := by
  rw [items, run_ok (peek_cons rfl _)]
  show (advance >>= fun _ => peek >>= _ : Reader σ) _ = _
  rw [run_ok (advance_cons _ _), run_ok (peek_gap_cons hgap hc cs)]
  simp only

theorem members_end (hgap : ∀ c ∈ gap, isGap c = true) (first : Bool) (rest : List Char) :
    members name field (fuel + 1) first s (gap ++ '\x7d' :: rest) = .ok (s, rest) := by
  rw [members, run_ok (peek_gap_cons hgap rfl rest)]
  rfl

theorem members_first (hgap : ∀ c ∈ gap, isGap c = true) (cs : List Char) :
    members name field (fuel + 1) true s (gap ++ '"' :: cs) =
      (name >>= fun key => field s key >>= members name field fuel false) cs := by
  rw [members, run_ok (peek_gap_cons hgap rfl cs)]
  show (peek >>= _ : Reader σ) _ = _
  rw [run_ok (peek_cons rfl cs)]
  rfl

theorem members_next (hgap : ∀ c ∈ gap, isGap c = true) (cs : List Char) :
    members name field (fuel + 1) false s (',' :: (gap ++ '"' :: cs)) =
      (name >>= fun key => field s key >>= members name field fuel false) cs := by
  rw [members, run_ok (peek_cons rfl _)]
  show (advance >>= fun _ => peek >>= _ : Reader σ) _ = _
  rw [run_ok (advance_cons _ _), run_ok (peek_gap_cons hgap rfl cs)]
  rfl

end Steps

section Layouts
variable {l : Layout} {depth : Nat} {s s' : σ}

theorem apart_itemsChars (hl : l.Blank) (depth : Nat) (vs : List Value) (rest : List Char) :
    Apart (Value.itemsChars l depth vs ++ rest) := by
  cases vs with
  | nil =>
    rw [Value.itemsChars, List.append_assoc]
    exact apart_gap (hl.gap depth) (by simp) rest
  | cons v vs =>
    rw [Value.itemsChars]
    exact apart_cons (.inl rfl) _

theorem apart_fieldsChars (hl : l.Blank) (depth : Nat) (fs : List (String × Value))
    (rest : List Char) : Apart (Value.fieldsChars l depth fs ++ rest) := by
  cases fs with
  | nil =>
    rw [Value.fieldsChars, List.append_assoc]
    exact apart_gap (hl.gap depth) (by simp) rest
  | cons f fs =>
    rw [Value.fieldsChars]
    exact apart_cons (.inl rfl) _

/-- The items after the first one are taken up to the closing bracket. -/
theorem items_itemsChars {item : σ → Reader σ} (hl : l.Blank) {vs : List Value}
    (h : Gathers item l depth s vs s') {fuel : Nat} (hfuel : vs.length < fuel) (rest : List Char) :
    items item fuel false s (Value.itemsChars l depth vs ++ rest) = .ok (s', ']' :: rest) := by
  induction h generalizing fuel with
  | nil s =>
    obtain ⟨fuel, rfl⟩ := Nat.exists_eq_add_one_of_ne_zero (Nat.ne_zero_of_lt hfuel)
    rw [Value.itemsChars, List.append_assoc]
    exact items_end (hl.gap depth) false rest
  | @cons s s₁ s' v vs first _ ih =>
    obtain ⟨fuel, rfl⟩ := Nat.exists_eq_add_one_of_ne_zero (Nat.ne_zero_of_lt hfuel)
    obtain ⟨c, cs, hopen, hgap, hbracket⟩ := first.opens
    have hitem := first.next (apart_itemsChars hl depth vs rest)
    rw [Value.itemsChars, List.cons_append, List.append_assoc, List.append_assoc]
    rw [hopen, List.cons_append] at hitem ⊢
    rw [items_next (hl.gap _) hgap hbracket, run_ok hitem]
    exact ih (Nat.lt_of_succ_lt_succ hfuel)

/-- The fields after the first one are taken with the closing brace. -/
theorem members_fieldsChars {field : σ → String → Reader σ} (hl : l.Blank)
    {fs : List (String × Value)} (h : Completes field l depth s fs s') {fuel : Nat}
    (hfuel : fs.length < fuel) (rest : List Char) :
    members literal field fuel false s (Value.fieldsChars l depth fs ++ rest) = .ok (s', rest) := by
  induction h generalizing fuel with
  | nil s =>
    obtain ⟨fuel, rfl⟩ := Nat.exists_eq_add_one_of_ne_zero (Nat.ne_zero_of_lt hfuel)
    rw [Value.fieldsChars, List.append_assoc]
    exact members_end (hl.gap depth) false rest
  | @cons s s₁ s' name v fs first _ ih =>
    obtain ⟨fuel, rfl⟩ := Nat.exists_eq_add_one_of_ne_zero (Nat.ne_zero_of_lt hfuel)
    have hfield := first _ (apart_fieldsChars hl depth fs rest)
    rw [Value.fieldsChars, literalChars]
    simp only [List.append_assoc, List.cons_append, List.nil_append]
    rw [members_next (hl.gap _), run_ok (literal_literalChars _ _), String.ofList_toList,
      run_ok hfield]
    exact ih (Nat.lt_of_succ_lt_succ hfuel)

theorem fuel_run (cs : List Char) : fuel cs = .ok (cs.length + 1, cs) := rfl

/-- A printed array is taken item by item after its bracket. -/
theorem arrayRest_arrayBody {item : σ → Reader σ} (hl : l.Blank) {vs : List Value}
    (h : Gathers item l depth s vs s') (rest : List Char) :
    arrayRest item s (Value.arrayBody l depth vs ++ rest) = .ok (s', rest) := by
  have hlength : vs.length ≤ (Value.arrayBody l depth vs ++ rest).length := by
    have hbody := Value.length_le_length_arrayBody l depth vs
    rw [List.length_append]
    omega
  unfold arrayRest
  rw [run_ok (fuel_run _)]
  generalize (Value.arrayBody l depth vs ++ rest).length = n at hlength ⊢
  have hitems : items item (n + 1) true s (Value.arrayBody l depth vs ++ rest) =
      .ok (s', ']' :: rest) := by
    cases h with
    | nil => exact items_end isGap_of_mem_nil true rest
    | @cons _ s₁ _ v vs first htail =>
      obtain ⟨c, cs, hopen, hgap, hbracket⟩ := first.opens
      have hitem := first.next (apart_itemsChars hl depth vs rest)
      rw [Value.arrayBody, List.append_assoc, List.append_assoc]
      rw [hopen, List.cons_append] at hitem ⊢
      rw [items_first (hl.gap _) hgap hbracket, run_ok hitem]
      exact items_itemsChars hl htail hlength rest
  rw [run_ok hitems]
  rfl

/-- A printed object is taken field by field after its brace. -/
theorem objectRest_objectBody {field : σ → String → Reader σ} (hl : l.Blank)
    {fs : List (String × Value)} (h : Completes field l depth s fs s') (rest : List Char) :
    objectRest literal field s (Value.objectBody l depth fs ++ rest) = .ok (s', rest) := by
  have hlength : fs.length ≤ (Value.objectBody l depth fs ++ rest).length := by
    have hbody := Value.length_le_length_objectBody l depth fs
    rw [List.length_append]
    omega
  unfold objectRest
  rw [run_ok (fuel_run _)]
  generalize (Value.objectBody l depth fs ++ rest).length = n at hlength ⊢
  cases h with
  | nil => exact members_end isGap_of_mem_nil true rest
  | @cons _ s₁ _ name v fs first htail =>
    have hfield := first _ (apart_fieldsChars hl depth fs rest)
    rw [Value.objectBody, literalChars]
    simp only [List.append_assoc, List.cons_append, List.nil_append]
    rw [members_first (hl.gap _), run_ok (literal_literalChars _ _), String.ofList_toList,
      run_ok hfield]
    exact members_fieldsChars hl htail hlength rest

/-- A list is taken from the printed array of its items. -/
theorem takes_list {item : Reader α} (hl : l.Blank) (f : α → Value) {as : List α}
    (h : ∀ a ∈ as, Takes item ((f a).chars l (depth + 1)) a) :
    Takes (list item) ((Value.array (as.map f)).chars l depth) as where
  opens := ⟨'[', _, Value.chars_array _, rfl, by decide⟩
  run gap rest hgap hrest := by
    have hgathers (start : List α) : Gathers (fun as => return (← item) :: as) l depth start
        (as.map f) (as.reverse ++ start) := by
      induction as generalizing start with
      | nil => exact .nil start
      | cons a as ih =>
        obtain ⟨ha, has⟩ := List.forall_mem_cons.mp h
        rw [List.reverse_cons, List.append_assoc]
        exact .cons (ha.returning (· :: start)) (ih has (a :: start))
    unfold list
    rw [Value.chars_array, List.cons_append, run_ok (peek_gap_cons hgap rfl _)]
    show (advance >>= fun _ => _ : Reader (List α)) _ = _
    rw [run_ok (advance_cons _ _), run_ok (arrayRest_arrayBody hl (hgathers []) rest),
      List.append_nil, List.reverse_reverse]
    rfl

theorem takes_texts (hl : l.Blank) (texts : List String) :
    Takes (list string) ((Value.strings texts).chars l depth) texts :=
  takes_list hl .string fun text _ => takes_text text

/-- A map is taken from the printed object of its entries. -/
theorem takes_map {item : Reader α} (hl : l.Blank) (f : α → Value) {entries : List (String × α)}
    (hkeys : (Keyed.keys entries).Nodup)
    (h : ∀ e ∈ entries, Takes item ((f e.2).chars l (depth + 1)) e.2) :
    Takes (map item) ((Value.object (entries.map fun e => (e.1, f e.2))).chars l depth)
      entries where
  opens := ⟨'\x7b', _, Value.chars_object _, rfl, by decide⟩
  run gap rest hgap hrest := by
    have hcompletes (start : List (String × α)) (hfresh : (Keyed.keys (start ++ entries)).Nodup) :
        Completes (fun entries key => do colon; return Keyed.put key (← item) entries) l depth start
          (entries.map fun e => (e.1, f e.2)) (start ++ entries) := by
      induction entries generalizing start with
      | nil =>
        rw [List.append_nil]
        exact .nil start
      | cons e entries ih =>
        obtain ⟨he, hentries⟩ := List.forall_mem_cons.mp h
        -- The next key is none of those taken so far, so its entry comes last.
        have hnew : e.1 ∉ Keyed.keys start := by
          intro hmem
          rw [Keyed.keys, List.map_append, List.nodup_append] at hfresh
          exact hfresh.2.2 e.1 hmem e.1 List.mem_cons_self rfl
        have hput : Keyed.put e.1 e.2 start = start ++ [e] := Keyed.put_of_notMem hnew e.2
        rw [List.append_cons] at hfresh ⊢
        refine .cons (fun rest hrest => ?_)
          (ih (List.nodup_cons.mp hkeys).2 hentries (start ++ [e]) hfresh)
        rw [run_ok (colon_cons _), run_ok (he.run _ _ hl.colon hrest), hput]
        rfl
    unfold map
    rw [Value.chars_object, List.cons_append, run_ok (peek_gap_cons hgap rfl _)]
    show (advance >>= fun _ => _ : Reader _) _ = _
    rw [run_ok (advance_cons _ _)]
    exact objectRest_objectBody hl (hcompletes [] hkeys) rest

/-- A field that is known and new is taken with its name noted. -/
theorem namedField_run (hl : l.Blank) {fields : List (Field σ)} {field : Field σ}
    {name : String} {seen : List String} {text rest : List Char}
    (hfield : fields.find? (·.name = name) = some field) (hnew : name ∉ seen)
    (htakes : Takes (field.read s) text s') (hrest : Apart rest) :
    namedField fields (seen, s) name (':' :: (l.colon ++ (text ++ rest))) =
      .ok ((name :: seen, s'), rest) := by
  have hseen : seen.contains name = false := by simpa using hnew
  unfold namedField
  simp only [hfield, hseen, Bool.false_eq_true, if_false]
  rw [run_ok (colon_cons _), run_ok (htakes.run _ _ hl.colon hrest)]
  rfl

/-- The next field is known, and new. -/
theorem Completes.known (hl : l.Blank) {fields : List (Field σ)} {name : String}
    {read : σ → Reader σ} {seen : List String} {v : Value} {fs : List (String × Value)}
    {s₁ : σ} {done : List String × σ}
    (hfield : fields.find? (·.name = name) = some ⟨name, read⟩) (hnew : name ∉ seen)
    (htakes : Takes (read s) (v.chars l (depth + 1)) s₁)
    (rest : Completes (namedField fields) l depth (name :: seen, s₁) fs done) :
    Completes (namedField fields) l depth (seen, s) ((name, v) :: fs) done :=
  .cons (fun _ => namedField_run hl hfield hnew htakes) rest

/-- A record is taken from a printed object that has the fields it demands. -/
theorem takes_members (hl : l.Blank) {fields : List (Field σ)} {demanded : Bool}
    {fs : List (String × Value)} {seen : List String}
    (h : Completes (namedField fields) l depth ([], s) fs (seen, s'))
    (hall : (demanded && !fields.all (seen.contains ·.name)) = false) :
    Takes (record fields demanded s) ((Value.object fs).chars l depth) s' where
  opens := ⟨'\x7b', _, Value.chars_object _, rfl, by decide⟩
  run gap rest hgap hrest := by
    unfold record
    rw [Value.chars_object, List.cons_append, run_ok (peek_gap_cons hgap rfl _)]
    show (advance >>= fun _ => _ : Reader σ) _ = _
    rw [run_ok (advance_cons _ _), run_ok (objectRest_objectBody hl h rest)]
    simp only [hall, Bool.false_eq_true, if_false]
    rfl

/-- A record is taken from a printed object that has all its fields. -/
theorem takes_record (hl : l.Blank) {fields : List (Field σ)} {demanded : Bool}
    {fs : List (String × Value)} (seen : List String)
    (h : Completes (namedField fields) l depth ([], s) fs (seen, s'))
    (hall : fields.all (seen.contains ·.name) = true) :
    Takes (record fields demanded s) ((Value.object fs).chars l depth) s' :=
  takes_members hl h (by rw [hall, Bool.not_true, Bool.and_false])

/-- A document is read from its printed value. -/
theorem document_of_takes {reader : Reader α} {text : List Char} {a : α}
    (h : Takes reader text a) : document reader (String.ofList text) = .ok a := by
  have hrun := h.next apart_nil
  rw [List.append_nil] at hrun
  unfold document
  rw [String.toList_ofList, hrun]
  rfl

end Layouts
end Reader
end ForwardedIp.Json
