import ForwardedIp.Settings
/-!
# Precedence of settings

The sources of a setting are ranked, and the first one with a usable value decides. So nothing
comes of a value that is not usable, whatever it is, nor of any source that is ranked below one
with a usable value, nor of what is said about another setting.
-/
namespace ForwardedIp

/-- What can be set. -/
inductive Setting where
  | failoverEnabled
  | failoverAddresses
  | disabled

namespace Setting

/-- Where a setting can come from. -/
inductive Source where
  | overrides
  | instanceAttributes
  | projectAttributes
  deriving DecidableEq

namespace Source

/-- A source with a smaller rank goes before one with a greater rank. -/
def rank : Source → Nat
  | overrides => 0
  | instanceAttributes => 1
  | projectAttributes => 2

/-- All sources in the order of their ranks. -/
def ranked : List Source := [overrides, instanceAttributes, projectAttributes]

theorem mem_ranked (src : Source) : src ∈ ranked := by cases src <;> decide

instance {p : Source → Prop} [DecidablePred p] : Decidable (∀ src, p src) :=
  decidable_of_iff (∀ src ∈ ranked, p src) ⟨fun h src => h src src.mem_ranked, fun h src _ => h src⟩

instance {p : Source → Prop} [DecidablePred p] : Decidable (∃ src, p src) :=
  decidable_of_iff (∃ src ∈ ranked, p src)
    ⟨fun ⟨src, _, h⟩ => ⟨src, h⟩, fun ⟨src, h⟩ => ⟨src, src.mem_ranked, h⟩⟩

/-- What stands before a source is ranked above it. -/
theorem mem_before_iff {before after : List Source} {src above : Source}
    (h : ranked = before ++ src :: after) : above ∈ before ↔ above.rank < src.rank := by
  have hsorted : ranked.Pairwise fun a b => a.rank < b.rank := by decide
  have hmem := above.mem_ranked
  rw [h] at hsorted hmem
  obtain ⟨-, hrest, hbefore⟩ := List.pairwise_append.mp hsorted
  constructor
  · intro habove
    exact hbefore above habove src List.mem_cons_self
  · intro hlt
    rcases List.mem_append.mp hmem with habove | hlater
    · exact habove
    · rcases List.mem_cons.mp hlater with rfl | hafter
      · omega
      · have hgt := (List.pairwise_cons.mp hrest).1 above hafter
        omega

end Source

/-- What the overrides say of a setting. -/
def override? : Setting → LocalConfig → Option String
  | failoverEnabled, c => c.get? Settings.failoverSection "enable"
  | failoverAddresses, c => c.get? Settings.failoverSection "addresses"
  | disabled, c => c.get? Settings.managerSection "disable"

/-- What attributes say of a setting. -/
def attribute? : Setting → Attributes → Option String
  | failoverEnabled, a => a.enableFailover
  | failoverAddresses, a => a.failoverAddresses
  | disabled, a => a.disableManager

/-- What a source says of a setting. -/
def text? (k : Setting) (c : LocalConfig) (s : Snapshot) : Source → Option String
  | .overrides => k.override? c
  | .instanceAttributes => k.attribute? s.instanceAttributes
  | .projectAttributes => k.attribute? s.projectAttributes

/-- The texts that a source can set a setting to: any list that is not empty, and the words of a
vocabulary for a flag. -/
def Usable : Setting → Source → String → Prop
  | failoverAddresses, _, t => t ≠ ""
  | failoverEnabled, .overrides, t =>
    String.ofList ((Text.trim t.toList).map Char.toLower) ∈ Flag.lenientWords.map Prod.fst
  | failoverEnabled, _, t => t ∈ Flag.strictWords.map Prod.fst
  | disabled, _, t => t ∈ Flag.strictWords.map Prod.fst

instance (k : Setting) (src : Source) (t : String) : Decidable (k.Usable src t) := by
  unfold Usable
  split <;> infer_instance

abbrev Value : Setting → Type
  | failoverEnabled => Bool
  | failoverAddresses => List String
  | disabled => Bool

/-- The value that a text of a source stands for. -/
def read? : (k : Setting) → Source → String → Option k.Value
  | failoverAddresses, _, t => (Settings.nonempty? t).map AddressList.parse
  | failoverEnabled, .overrides, t => Flag.lenient? t
  | failoverEnabled, _, t => Flag.strict? t
  | disabled, _, t => Flag.strict? t

/-- The value of a setting without any usable source. -/
def fallback : (k : Setting) → Bool → k.Value
  | failoverEnabled, _ => false
  | failoverAddresses, _ => []
  | disabled, remembered => remembered

def value : (k : Setting) → Settings → k.Value
  | failoverEnabled, v => v.failoverEnabled
  | failoverAddresses, v => v.failoverAddresses
  | disabled, v => v.disabled

variable {k : Setting} {f f' : Source → Option String} {src : Source} {t : String}

theorem isSome_lookup {words : List (String × Bool)} :
    (words.lookup t).isSome = true ↔ t ∈ words.map Prod.fst := by
  induction words with
  | nil => simp
  | cons w words ih =>
    rw [List.lookup_cons, List.map_cons, List.mem_cons]
    by_cases h : t = w.1
    · simp [h]
    · simp [beq_false_of_ne h, h, ih]

/-- A text is usable exactly if it stands for a value. -/
theorem isSome_read? : (k.read? src t).isSome = true ↔ k.Usable src t := by
  cases k with
  | failoverEnabled => cases src <;> exact isSome_lookup
  | failoverAddresses => cases src <;> simp [read?, Usable, Settings.nonempty?]
  | disabled => cases src <;> exact isSome_lookup

/-- A source has a usable text. -/
def UsableAt (k : Setting) (f : Source → Option String) (src : Source) : Prop :=
  ∃ t ∈ f src, k.Usable src t

/-- Sources that say the same of a setting, but for texts that are not usable, and for all that is
ranked below a usable one. -/
def Alike (k : Setting) (f f' : Source → Option String) : Prop :=
  ∀ src, f src = f' src ∨ (¬ k.UsableAt f src ∧ ¬ k.UsableAt f' src) ∨
    ∃ above : Source, above.rank < src.rank ∧ k.UsableAt f above

/-- The first source with a usable text. -/
def First (k : Setting) (f : Source → Option String) (src : Source) : Prop :=
  k.UsableAt f src ∧ ∀ above : Source, above.rank < src.rank → ¬ k.UsableAt f above

instance : Decidable (k.UsableAt f src) := inferInstanceAs (Decidable (∃ t ∈ f src, _))

instance : Decidable (k.Alike f f') := inferInstanceAs (Decidable (∀ _, _))

instance : Decidable (k.First f src) := inferInstanceAs (Decidable (_ ∧ _))

/-- The value that a source gives a setting. -/
def given? (k : Setting) (f : Source → Option String) (src : Source) : Option k.Value :=
  (f src).bind (k.read? src)

/-- The value that the sources give a setting. -/
def decided? (k : Setting) (f : Source → Option String) : Option k.Value :=
  Source.ranked.findSome? (k.given? f)

theorem isSome_given? : (k.given? f src).isSome = true ↔ k.UsableAt f src := by
  rw [given?, UsableAt]
  cases f src with
  | none => simp
  | some t => simp [isSome_read?]

theorem given?_eq_none : k.given? f src = none ↔ ¬ k.UsableAt f src := by
  rw [← isSome_given?, Option.not_isSome_iff_eq_none]

/-- The value in force is the one that the sources give, or the fallback. -/
theorem value_resolve (k : Setting) (c : LocalConfig) (s : Snapshot) (remembered : Bool) :
    k.value (Settings.resolve c s remembered) =
      (k.decided? (k.text? c s)).getD (k.fallback remembered) := by
  have hranked : ∀ g : Source → Option k.Value, Source.ranked.findSome? g =
      (g .overrides).or ((g .instanceAttributes).or (g .projectAttributes)) := by
    intro g
    simp only [Source.ranked, List.findSome?_cons, List.findSome?_nil]
    cases g .overrides <;> cases g .instanceAttributes <;> cases g .projectAttributes <;> rfl
  rw [decided?, hranked]
  cases k with
  | failoverEnabled => rfl
  | failoverAddresses =>
    have hgiven : ∀ f src, failoverAddresses.given? f src =
        ((f src).bind Settings.nonempty?).map AddressList.parse := by
      intro f src
      rw [given?]
      cases f src <;> rfl
    rw [hgiven, hgiven, hgiven, ← Option.map_or, ← Option.map_or]
    rfl
  | disabled => rfl

/-- Below a usable source nothing counts, and of the others only what is usable. -/
theorem decided?_congr (h : k.Alike f f') : k.decided? f = k.decided? f' := by
  have hfirst : ∀ before rest, Source.ranked = before ++ rest →
      (∀ above ∈ before, ¬ k.UsableAt f above) →
        rest.findSome? (k.given? f) = rest.findSome? (k.given? f') := by
    intro before rest hsplit hbefore
    induction rest generalizing before with
    | nil => rfl
    | cons src rest ih =>
      have hsame : k.given? f src = k.given? f' src := by
        rcases h src with heq | ⟨hunusable, hunusable'⟩ | ⟨above, habove, husable⟩
        · rw [given?, heq, given?]
        · rw [given?_eq_none.mpr hunusable, given?_eq_none.mpr hunusable']
        · exact absurd husable (hbefore above ((Source.mem_before_iff hsplit).mpr habove))
      rw [List.findSome?_cons, List.findSome?_cons, ← hsame]
      cases hgiven : k.given? f src with
      | some v => rfl
      | none =>
        refine ih (before ++ [src]) (by rw [hsplit]; simp) ?_
        intro above habove
        rcases List.mem_append.mp habove with habove | hlast
        · exact hbefore above habove
        · rw [List.mem_singleton.mp hlast]
          exact given?_eq_none.mp hgiven
  exact hfirst [] Source.ranked rfl (by simp)

theorem decided?_eq_none (h : ∀ src, ¬ k.UsableAt f src) : k.decided? f = none :=
  List.findSome?_eq_none_iff.mpr fun src _ => given?_eq_none.mpr (h src)

/-- The first usable source decides. -/
theorem decided?_of_first (h : k.First f src) :
    ∃ t v, f src = some t ∧ k.read? src t = some v ∧ k.decided? f = some v := by
  obtain ⟨⟨t, ht, husable⟩, habove⟩ := h
  obtain ⟨v, hv⟩ := Option.isSome_iff_exists.mp (isSome_read?.mpr husable)
  obtain ⟨before, after, hsplit⟩ := List.append_of_mem src.mem_ranked
  have hgiven : k.given? f src = some v := by rw [given?, ht, Option.bind_some, hv]
  refine ⟨t, v, ht, hv, List.findSome?_eq_some_iff.mpr ⟨before, src, after, hsplit, hgiven, ?_⟩⟩
  intro above hbefore
  exact given?_eq_none.mpr (habove above ((Source.mem_before_iff hsplit).mp hbefore))

end Setting

namespace Settings

/-- Every setting has the value of its first usable source, or its fallback. It changes with nothing
but usable values of its own sources, and with none that is ranked below a usable one. -/
theorem first_usable_decides (c c' : LocalConfig) (s s' : Snapshot) (remembered : Bool) :
    (∀ k : Setting, k.Alike (k.text? c s) (k.text? c' s') →
      k.value (resolve c s remembered) = k.value (resolve c' s' remembered)) ∧
    ((∀ k : Setting, k.Alike (k.text? c s) (k.text? c' s')) →
      resolve c s remembered = resolve c' s' remembered) ∧
    (∀ k : Setting, (∀ src, ¬ k.UsableAt (k.text? c s) src) →
      k.value (resolve c s remembered) = k.fallback remembered) ∧
    ∀ (k : Setting) (src : Setting.Source), k.First (k.text? c s) src →
      ∃ t, k.text? c s src = some t ∧
        k.read? src t = some (k.value (resolve c s remembered)) := by
  have hvalue : ∀ k : Setting, k.Alike (k.text? c s) (k.text? c' s') →
      k.value (resolve c s remembered) = k.value (resolve c' s' remembered) := by
    intro k h
    rw [k.value_resolve, k.value_resolve, Setting.decided?_congr h]
  refine ⟨hvalue, fun h => ?_, fun k h => ?_, fun k src h => ?_⟩
  · rw [resolve, resolve, mk.injEq]
    exact ⟨hvalue .failoverEnabled (h _), hvalue .failoverAddresses (h _), hvalue .disabled (h _)⟩
  · rw [k.value_resolve, Setting.decided?_eq_none h, Option.getD_none]
  · obtain ⟨t, v, ht, hv, hdecided⟩ := Setting.decided?_of_first h
    refine ⟨t, ht, ?_⟩
    rw [k.value_resolve, hdecided, Option.getD_some, hv]

/-- Overrides with a flag that is no word, an empty list, and a flag with a blank too many. -/
def mistyped : LocalConfig := .ofEntries
  [(failoverSection, "enable", "maybe"), (failoverSection, "addresses", ""),
    (managerSection, "disable", " true")]

/-- Attributes with a flag that only overrides may use, and two lists. -/
def cluttered : Snapshot where
  instanceAttributes := { enableFailover := some "yes", failoverAddresses := some " 10.0.0.10," }
  projectAttributes := { enableFailover := some "true", failoverAddresses := some "10.9.9.9" }

/-- The attributes of these that count. -/
def tidied : Snapshot where
  instanceAttributes := { failoverAddresses := some " 10.0.0.10," }
  projectAttributes := { enableFailover := some "true" }

theorem mistyped_unnoticed :
    (∀ k : Setting, k.Alike (k.text? mistyped cluttered) (k.text? .empty tidied)) ∧
    resolve mistyped cluttered true = resolve .empty tidied true ∧
    (∀ src, ¬ Setting.disabled.UsableAt (Setting.disabled.text? mistyped cluttered) src) ∧
    (resolve mistyped cluttered true).disabled = true ∧
    Setting.failoverEnabled.First (Setting.failoverEnabled.text? mistyped cluttered)
      .projectAttributes ∧
    some (resolve mistyped cluttered true).failoverEnabled = Flag.strict? "true" := by
  obtain ⟨-, hsame, hfallback, hfirst⟩ :=
    first_usable_decides mistyped .empty cluttered tidied true
  have halike : ∀ k : Setting, k.Alike (k.text? mistyped cluttered) (k.text? .empty tidied) := by
    intro k
    cases k <;> decide +kernel
  have hnone : ∀ src, ¬ Setting.disabled.UsableAt (Setting.disabled.text? mistyped cluttered)
      src := by decide +kernel
  have hproject : Setting.failoverEnabled.First (Setting.failoverEnabled.text? mistyped cluttered)
      .projectAttributes := by decide +kernel
  obtain ⟨t, ht, hvalue⟩ := hfirst _ _ hproject
  obtain rfl : "true" = t := Option.some.inj ht
  exact ⟨halike, hsame halike, hnone, hfallback _ hnone, hproject, hvalue.symm⟩

end Settings

end ForwardedIp
