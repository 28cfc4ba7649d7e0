import ForwardedIp.Snapshot
import ForwardedIp.Proofs.DocumentPhrases
import ForwardedIp.Proofs.PrintedValues
/-!
# Documents round-trip

Snapshots and configurations are read back from the documents that they are printed as, whatever
their texts and numbers are. An attribute that is absent has no field; a ledger that is kept in
memory has no path.
-/
namespace ForwardedIp

open Json

namespace Attributes
variable {l : Layout}

theorem takes_read (hl : l.Blank) (a : Attributes) (depth : Nat) :
    Reader.Takes read (a.toJson.chars l depth) a := by
  obtain ⟨failover, addresses, disable⟩ := a
  -- Only the attributes that are there have a field, so each one is read or left as it was.
  have hfields : Reader.Completes (Reader.namedField shape) l depth ([], {})
      (failover.toList.map (fun t => ("enable-wsfc", .string t)) ++
        (addresses.toList.map (fun t => ("wsfc-addrs", .string t)) ++
          (disable.toList.map (fun t => ("disable-address-manager", .string t)) ++ [])))
      _ :=
    .option hl (f := fun a t => { a with enableFailover := t }) rfl (by simp) rfl
      (.option hl (f := fun a t => { a with failoverAddresses := t }) rfl (by simp) rfl
        (.option hl (f := fun a t => { a with disableManager := t }) rfl (by simp) rfl
          (.nil _)))
  rw [List.append_nil, ← List.append_assoc] at hfields
  exact Reader.takes_members hl hfields rfl

end Attributes

namespace DeclaredInterface
variable {l : Layout}

theorem takes_read (hl : l.Blank) (i : DeclaredInterface) (depth : Nat) :
    Reader.Takes read (i.toJson.chars l depth) i :=
  Reader.takes_members hl
    (.known hl rfl (by decide)
      ((Reader.takes_text i.mac).returning fun mac => DeclaredInterface.mk mac [])
    (.known hl rfl (by decide)
      ((Reader.takes_texts hl i.forwardedIps).returning (DeclaredInterface.mk i.mac))
    (.nil _))) rfl

end DeclaredInterface

namespace Snapshot
variable {l : Layout}

theorem takes_read (hl : l.Blank) (s : Snapshot) (depth : Nat) :
    Reader.Takes read (s.toJson.chars l depth) s := by
  have hinterfaces : Reader.Takes (.list DeclaredInterface.read)
      ((Value.array (s.interfaces.map DeclaredInterface.toJson)).chars l (depth + 2))
      s.interfaces :=
    Reader.takes_list hl DeclaredInterface.toJson fun i _ => i.takes_read hl (depth + 3)
  have hinstance : Reader.Takes (Reader.record instanceShape false {})
      ((Value.object [("attributes", s.instanceAttributes.toJson),
        ("networkInterfaces", .array (s.interfaces.map DeclaredInterface.toJson))]).chars l
          (depth + 1))
      ({ instanceAttributes := s.instanceAttributes, interfaces := s.interfaces } : Snapshot) :=
    Reader.takes_members hl
      (.known hl rfl (by decide)
        ((s.instanceAttributes.takes_read hl (depth + 2)).returning fun a =>
          ({ instanceAttributes := a } : Snapshot))
      (.known hl rfl (by decide)
        (hinterfaces.returning fun interfaces =>
          ({ instanceAttributes := s.instanceAttributes, interfaces } : Snapshot))
      (.nil _))) rfl
  have hproject : Reader.Takes
      (Reader.record projectShape false
        ({ instanceAttributes := s.instanceAttributes, interfaces := s.interfaces } : Snapshot))
      ((Value.object [("attributes", s.projectAttributes.toJson)]).chars l (depth + 1)) s :=
    Reader.takes_members hl
      (.known hl rfl (by decide)
        ((s.projectAttributes.takes_read hl (depth + 2)).returning fun a =>
          ({ s with projectAttributes := a } : Snapshot))
      (.nil _)) rfl
  exact Reader.takes_members hl
    (.known hl rfl (by decide) hinstance
    (.known hl rfl (by decide) hproject
    (.nil _))) rfl

/-- A snapshot is read back from its document, in any layout. -/
theorem parse_chars (hl : l.Blank) (s : Snapshot) :
    parse (String.ofList (s.toJson.chars l 0)) = .ok s := by
  rw [parse, Reader.document_of_takes (s.takes_read hl 0)]

end Snapshot

namespace MetadataConfig
variable {l : Layout}

theorem takes_read (hl : l.Blank) (c : MetadataConfig) (depth : Nat) :
    Reader.Takes read (c.toJson.chars l depth) c :=
  Reader.takes_members hl
    (.known hl rfl (by decide)
      ((Reader.takes_text c.url).returning fun url => ({ url } : MetadataConfig))
    (.known hl rfl (by decide)
      ((Reader.takes_readWord c.timeoutSecs).returning fun timeoutSecs =>
        ({ url := c.url, timeoutSecs } : MetadataConfig))
    (.known hl rfl (by decide)
      ((Reader.takes_bool c.waitForChange).returning fun waitForChange =>
        ({ url := c.url, timeoutSecs := c.timeoutSecs, waitForChange } : MetadataConfig))
    (.known hl rfl (by decide)
      ((Reader.takes_readWord c.waitTimeoutSecs).returning fun waitTimeoutSecs =>
        ({ c with waitTimeoutSecs } : MetadataConfig))
    (.nil _))))) rfl

end MetadataConfig

namespace EngineConfig
variable {l : Layout}

theorem takes_read (hl : l.Blank) (c : EngineConfig) (depth : Nat) :
    Reader.Takes read (c.toJson.chars l depth) c :=
  Reader.takes_members hl
    (.known hl rfl (by decide)
      ((Reader.takes_readWord c.pollIntervalSecs).returning fun pollIntervalSecs =>
        ({ pollIntervalSecs } : EngineConfig))
    (.known hl rfl (by decide)
      ((Reader.takes_readWord c.retryDelaySecs).returning fun retryDelaySecs =>
        ({ pollIntervalSecs := c.pollIntervalSecs, retryDelaySecs } : EngineConfig))
    (.known hl rfl (by decide)
      ((Reader.takes_readWord c.eventChannelCapacity).returning fun eventChannelCapacity =>
        ({ c with eventChannelCapacity } : EngineConfig))
    (.nil _)))) rfl

end EngineConfig

namespace LedgerConfig
variable {l : Layout} {depth : Nat}

theorem takes_readKind {name : String} {kind : Kind}
    (h : name = "file" ∧ kind = .file ∨ name = "memory" ∧ kind = .memory) :
    Reader.Takes readKind ((Value.string name).chars l depth) kind where
  opens := (Reader.takes_text name).opens
  run gap rest hgap hrest := by
    unfold readKind
    rw [Reader.run_ok ((Reader.takes_text name).run gap rest hgap hrest)]
    rcases h with ⟨rfl, rfl⟩ | ⟨rfl, rfl⟩ <;> rfl

theorem taggedField_type (hl : l.Blank) {name : String} {kind : Kind}
    (hkind : Reader.Takes readKind ((Value.string name).chars l depth) kind) (rest : List Char)
    (hrest : Reader.Apart rest) :
    taggedField {} "type" (':' :: (l.colon ++ ((Value.string name).chars l depth ++ rest))) =
      .ok ({ kind := some kind }, rest) := by
  show (Reader.colon >>= fun _ => readKind >>= _ : Reader Tagged) _ = _
  rw [Reader.run_ok (Reader.colon_cons _), Reader.run_ok (hkind.run _ _ hl.colon hrest)]
  rfl

theorem taggedField_path (hl : l.Blank) (t : Tagged) (path : String) (rest : List Char)
    (hrest : Reader.Apart rest) :
    taggedField t "path" (':' :: (l.colon ++ ((Value.string path).chars l depth ++ rest))) =
      .ok ({ t with rest := t.rest ++ [("path", .string path)] }, rest) := by
  have hpath : Reader.Takes (Reader.valueWithin contentDepth)
      ((Value.string path).chars l depth) (.string path) := Reader.takes_valueWithin path 124
  show (Reader.colon >>= fun _ => Reader.valueWithin contentDepth >>= _ : Reader Tagged) _ = _
  rw [Reader.run_ok (Reader.colon_cons _), Reader.run_ok (hpath.run _ _ hl.colon hrest)]
  rfl

theorem takes_of_completes (hl : l.Blank) {fs : List (String × Value)} {t : Tagged}
    {c : LedgerConfig} (h : Reader.Completes taggedField l depth {} fs t)
    (hmeans : ofTagged? t = some c) :
    Reader.Takes read ((Value.object fs).chars l depth) c where
  opens := ⟨'\x7b', _, Value.chars_object _, rfl, by decide⟩
  run gap rest hgap hrest := by
    unfold read
    rw [Value.chars_object, List.cons_append, Reader.peeked hgap rfl]
    show (Reader.advance >>= fun _ => _ : Reader LedgerConfig) _ = _
    rw [Reader.run_ok (Reader.advance_cons _ _),
      Reader.run_ok (Reader.objectRest_objectBody hl h rest), hmeans]
    rfl

theorem takes_read (hl : l.Blank) (c : LedgerConfig) (depth : Nat) :
    Reader.Takes read (c.toJson.chars l depth) c := by
  cases c with
  | file path =>
    have hkind : Reader.Takes readKind ((Value.string "file").chars l (depth + 1)) .file :=
      takes_readKind (.inl ⟨rfl, rfl⟩)
    exact takes_of_completes hl
      (.cons (taggedField_type hl hkind) (.cons (taggedField_path hl _ path) (.nil _))) rfl
  | memory =>
    have hkind : Reader.Takes readKind ((Value.string "memory").chars l (depth + 1)) .memory :=
      takes_readKind (.inr ⟨rfl, rfl⟩)
    exact takes_of_completes hl (.cons (taggedField_type hl hkind) (.nil _)) rfl

end LedgerConfig

namespace Config
variable {l : Layout}

theorem takes_read (hl : l.Blank) (c : Config) (depth : Nat) :
    Reader.Takes (Reader.record shape false {}) (c.toJson.chars l depth) c :=
  Reader.takes_members hl
    (.known hl rfl (by decide)
      ((c.metadata.takes_read hl (depth + 1)).returning fun metadata => ({ metadata } : Config))
    (.known hl rfl (by decide)
      ((c.ledger.takes_read hl (depth + 1)).returning fun ledger =>
        ({ metadata := c.metadata, ledger } : Config))
    (.known hl rfl (by decide)
      ((Reader.takes_optional c.localConfigPath).returning fun localConfigPath =>
        ({ metadata := c.metadata, ledger := c.ledger, localConfigPath } : Config))
    (.known hl rfl (by decide)
      ((c.engine.takes_read hl (depth + 1)).returning fun engine =>
        ({ c with engine } : Config))
    (.nil _))))) rfl

/-- A configuration is read back from its document, in any layout. -/
theorem parse_chars (hl : l.Blank) (c : Config) :
    parse (String.ofList (c.toJson.chars l 0)) = .ok c :=
  Reader.document_of_takes (c.takes_read hl 0)

end Config
end ForwardedIp
