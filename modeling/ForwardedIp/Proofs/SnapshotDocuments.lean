import ForwardedIp.Proofs.DocumentRoundTrips
import ForwardedIp.Proofs.PrintedPhrases
import ForwardedIp.Proofs.UnknownFields
/-!
# Snapshot documents

A snapshot document is read by the fields that it knows: of the document itself, of the instance
and each of its interfaces, of the project, and of the attributes of both. Fields with other names
may stand anywhere in these objects and hold anything.
-/
namespace ForwardedIp

open Json

namespace Attributes

def layer : Layer :=
  .record [("enable-wsfc", .leaf), ("wsfc-addrs", .leaf), ("disable-address-manager", .leaf)]

def known : List (KnownField Attributes) :=
  [⟨"enable-wsfc", .leaf,
      fun a => (Sense.optional .string).map fun t => { a with enableFailover := t }⟩,
    ⟨"wsfc-addrs", .leaf,
      fun a => (Sense.optional .string).map fun t => { a with failoverAddresses := t }⟩,
    ⟨"disable-address-manager", .leaf,
      fun a => (Sense.optional .string).map fun t => { a with disableManager := t }⟩]

def sense : Sense layer Attributes := Sense.record known {}

end Attributes

namespace DeclaredInterface

def layer : Layer := .record [("mac", .leaf), ("forwardedIps", .list .leaf)]

def known : List (KnownField DeclaredInterface) :=
  [⟨"mac", .leaf, fun i => Sense.string.map fun mac => { i with mac }⟩,
    ⟨"forwardedIps", .list .leaf,
      fun i => Sense.string.list.map fun forwardedIps => { i with forwardedIps }⟩]

def sense : Sense layer DeclaredInterface := Sense.record known {}

end DeclaredInterface

namespace Snapshot

def instanceLayer : Layer :=
  .record [("attributes", Attributes.layer), ("networkInterfaces", .list DeclaredInterface.layer)]

def projectLayer : Layer := .record [("attributes", Attributes.layer)]

/-- Where in a snapshot document fields are looked for. -/
def layer : Layer := .record [("instance", instanceLayer), ("project", projectLayer)]

def instanceKnown : List (KnownField Snapshot) :=
  [⟨"attributes", Attributes.layer,
      fun s => Attributes.sense.map fun a => { s with instanceAttributes := a }⟩,
    ⟨"networkInterfaces", .list DeclaredInterface.layer,
      fun s => DeclaredInterface.sense.list.map fun interfaces => { s with interfaces }⟩]

def projectKnown : List (KnownField Snapshot) :=
  [⟨"attributes", Attributes.layer,
    fun s => Attributes.sense.map fun a => { s with projectAttributes := a }⟩]

def known : List (KnownField Snapshot) :=
  [⟨"instance", instanceLayer, Sense.record instanceKnown⟩,
    ⟨"project", projectLayer, Sense.record projectKnown⟩]

def sense : Sense layer Snapshot := Sense.record known {}

theorem reader_sense : sense.reader = read := rfl

/-- What a document is read as depends on its phrase only. -/
theorem parse_document (p : Phrase) (before after : Gap) (s : Snapshot) :
    parse (p.document before after) = .ok s ↔ sense.read p = some s := by
  have hread := sense.document p before after
  rw [reader_sense] at hread
  rw [← hread, parse]
  cases Reader.document read (p.document before after) with
  | ok found => simp [Except.toOption]
  | error defect => simp [Except.toOption]

/-- Unknown fields do not change the snapshot that a document is read as. -/
theorem parse_adds {p p' : Phrase} (h : Relation.ReflTransGen layer.Adds p p')
    (before after before' after' : Gap) (s : Snapshot) :
    parse (p'.document before' after') = .ok s ↔ parse (p.document before after) = .ok s := by
  rw [parse_document, parse_document, sense.ignores_all h]

end Snapshot

section Printed
variable {l : Layout}

theorem Attributes.isPhrase_toJson (hl : l.Blank) (a : Attributes) : a.toJson.IsPhrase l := by
  refine Value.isPhrase_object hl fun f hf => ?_
  have htext : ∃ text, f.2 = .string text := by
    simp only [List.mem_append, List.mem_map] at hf
    rcases hf with (⟨t, -, rfl⟩ | ⟨t, -, rfl⟩) | ⟨t, -, rfl⟩ <;> exact ⟨t, rfl⟩
  obtain ⟨text, htext⟩ := htext
  rw [htext]
  exact Value.isPhrase_string text

theorem DeclaredInterface.isPhrase_toJson (hl : l.Blank) (i : DeclaredInterface) :
    i.toJson.IsPhrase l := by
  have hips : (Value.strings i.forwardedIps).IsPhrase l :=
    Value.isPhrase_array hl (List.forall_mem_map.mpr fun ip _ => Value.isPhrase_string ip)
  exact Value.isPhrase_object hl (List.forall_mem_cons.mpr ⟨Value.isPhrase_string i.mac,
    List.forall_mem_singleton.mpr hips⟩)

theorem Snapshot.isPhrase_toJson (hl : l.Blank) (s : Snapshot) : s.toJson.IsPhrase l := by
  have hinterfaces : (Value.array (s.interfaces.map DeclaredInterface.toJson)).IsPhrase l :=
    Value.isPhrase_array hl (List.forall_mem_map.mpr fun i _ => i.isPhrase_toJson hl)
  exact Value.isPhrase_object hl (List.forall_mem_cons.mpr
    ⟨Value.isPhrase_object hl (List.forall_mem_cons.mpr
      ⟨s.instanceAttributes.isPhrase_toJson hl, List.forall_mem_singleton.mpr hinterfaces⟩),
    List.forall_mem_singleton.mpr (Value.isPhrase_object hl
      (List.forall_mem_singleton.mpr (s.projectAttributes.isPhrase_toJson hl)))⟩)

end Printed

namespace Snapshot

/-- A printed snapshot is a well-formed document. -/
theorem exists_document {l : Layout} (hl : l.Blank) (s : Snapshot) :
    ∃ p : Phrase, p.document .none .none = String.ofList (s.toJson.chars l 0) := by
  obtain ⟨p, hp⟩ := s.isPhrase_toJson hl 0
  refine ⟨p, ?_⟩
  rw [Phrase.document, hp]
  exact congrArg String.ofList (List.append_nil _)

/-- Snapshots and configurations are what their documents are read as, on one line or indented. So
two snapshots have documents that are read differently, also where an attribute is absent in one
and empty in the other. The document of a snapshot is well-formed, and a well-formed document with
unknown fields added to it, anywhere and with any content, is read as the same snapshot. -/
theorem documents_round_trip :
    (∀ s : Snapshot, parse s.toJson.compact = .ok s ∧ parse s.toJson.indented = .ok s) ∧
    (∀ c : Config, Config.parse c.toJson.compact = .ok c ∧
      Config.parse c.toJson.indented = .ok c) ∧
    (∀ s s' : Snapshot, s ≠ s' → parse s.toJson.compact ≠ parse s'.toJson.compact) ∧
    (∀ s : Snapshot, (∃ p : Phrase, p.document .none .none = s.toJson.compact) ∧
      ∃ p : Phrase, p.document .none .none = s.toJson.indented) ∧
    ∀ (p p' : Phrase) (before after before' after' : Gap) (s : Snapshot),
      Relation.ReflTransGen layer.Adds p p' →
        (parse (p'.document before' after') = .ok s ↔ parse (p.document before after) = .ok s) := by
  have hcompact (s : Snapshot) : parse s.toJson.compact = .ok s :=
    s.parse_chars Layout.blank_compact
  refine ⟨fun s => ⟨hcompact s, s.parse_chars Layout.blank_indented⟩,
    fun c => ⟨c.parse_chars Layout.blank_compact, c.parse_chars Layout.blank_indented⟩,
    fun s s' hne heq => ?_,
    fun s => ⟨s.exists_document Layout.blank_compact, s.exists_document Layout.blank_indented⟩,
    fun p p' before after before' after' s h => parse_adds h before after before' after' s⟩
  rw [hcompact, hcompact] at heq
  exact hne (Except.ok.inj heq)

/-- An attribute that is empty is not read as an absent one, and an interface may have a field of
its own with half a character in it. -/
theorem lone_half_ignored :
    parse (toJson { projectAttributes := { disableManager := some "" } }).compact ≠
      parse (toJson {}).compact ∧
    parse (Phrase.document (.object [(.bare "instance", .object
      [(.bare "networkInterfaces", .array [(.none, .object
        [(.bare "mac", .string (Spelling.ofText "m")),
          (.bare "kind", .array
            [(.none, .string [.quad 'd' '8' '0' '0' 0xD800 rfl])] .none)] .none)] .none)]
      .none)] .none) .none .none) = .ok { interfaces := [⟨"m", []⟩] } := by
  have hplain : parse (Phrase.document (.object [(.bare "instance", .object
      [(.bare "networkInterfaces", .array [(.none, .object
        [(.bare "mac", .string (Spelling.ofText "m"))] .none)] .none)]
      .none)] .none) .none .none) = .ok { interfaces := [⟨"m", []⟩] } :=
    (parse_document _ _ _ _).mpr rfl
  refine ⟨documents_round_trip.2.2.1 _ _ (by decide),
    (documents_round_trip.2.2.2.2 _ _ _ _ _ _ _ (.single ?_)).mpr hplain⟩
  exact .within [] [] _ _ (Spelling.meaning?_ofText "instance") rfl
    (.within [] [] _ _ (Spelling.meaning?_ofText "networkInterfaces") rfl
      (.item [] [] _ _ (.inserted [_] [] _ _ _ (Spelling.meaning?_ofText "kind") rfl)))

end Snapshot
end ForwardedIp
