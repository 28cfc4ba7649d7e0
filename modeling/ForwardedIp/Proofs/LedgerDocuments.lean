import ForwardedIp.Ledger.Document
import ForwardedIp.Proofs.PrintedDocuments
import ForwardedIp.Proofs.PrintedTimes
import ForwardedIp.Proofs.ReaderResults
/-!
# Ledger documents read back

The document of any records a ledger can hold reads back as these records, whatever characters
their keys and addresses have. A document that is read holds only such records, and setting and
dropping records keeps to them.
-/
namespace ForwardedIp

open Json

namespace LedgerRecord

theorem takes_readTimestamp {t : Timestamp} (h : t.Valid) :
    Reader.Takes readTimestamp (literalChars t.text.toList) t where
  opens := (Reader.takes_string t.text).opens
  run gap rest hgap hrest := by
    unfold readTimestamp
    rw [Reader.run_ok ((Reader.takes_string t.text).run gap rest hgap hrest),
      Timestamp.parse?_text h]
    rfl

theorem gives_readTimestamp : Reader.Gives readTimestamp Timestamp.Valid := by
  refine .after fun text => ?_
  split
  · next t ht => exact .pure (Timestamp.valid_of_parse? ht)
  · exact Reader.gives_fail _ _

/-- A record reads back from its printed form. -/
theorem takes_read {r : LedgerRecord} (h : r.lastUpdated.Valid) (depth : Nat) :
    Reader.Takes read (r.toJson.chars .indented depth) r := by
  have hips : Reader.Takes (.list .string)
      ((Value.strings r.forwardedIps).chars .indented (depth + 1)) r.forwardedIps :=
    Reader.takes_texts Layout.blank_indented r.forwardedIps
  have hupdated : Reader.Takes readTimestamp
      ((Value.string r.lastUpdated.text).chars .indented (depth + 1)) r.lastUpdated := by
    rw [Value.chars]
    exact takes_readTimestamp h
  exact Reader.takes_record Layout.blank_indented ["last_updated", "forwarded_ips"]
    (.known Layout.blank_indented rfl (by decide)
      (hips.returning fun ips => LedgerRecord.mk ips ⟨0, 0, 0⟩)
    (.known Layout.blank_indented rfl (by decide)
      (hupdated.returning (LedgerRecord.mk r.forwardedIps))
    (.nil _))) (by decide)

/-- The time of a record that is read exists. -/
theorem gives_read : Reader.Gives read fun r => r.lastUpdated.Valid := by
  refine Reader.gives_record (fun field hfield r hr => ?_) true Timestamp.valid_epoch
  rw [shape, List.mem_cons, List.mem_singleton] at hfield
  rcases hfield with rfl | rfl
  · exact .after fun ips => .pure hr
  · exact gives_readTimestamp.bind fun t ht => .pure ht

end LedgerRecord

namespace LedgerDocument

/-- Records that a ledger can hold: one for each key, with a time that exists. -/
structure Sound (records : List (String × LedgerRecord)) : Prop where
  nodup : (Keyed.keys records).Nodup
  valid : ∀ e ∈ records, e.2.lastUpdated.Valid

theorem sound_nil : Sound [] := ⟨List.nodup_nil, by simp⟩

theorem Sound.put {records : List (String × LedgerRecord)} (h : Sound records) (key : String)
    {r : LedgerRecord} (hr : r.lastUpdated.Valid) : Sound (Keyed.put key r records) where
  nodup := Keyed.nodup_keys_put h.nodup key r
  valid e he := by
    rcases Keyed.mem_put he with rfl | he
    · exact hr
    · exact h.valid e he

theorem Sound.drop {records : List (String × LedgerRecord)} (h : Sound records) (key : String) :
    Sound (Keyed.drop key records) where
  nodup := Keyed.nodup_keys_drop h.nodup key
  valid e he := h.valid e (List.mem_filter.mp he).1

/-- Only records that a ledger can hold are read. -/
theorem sound_of_parse {text : String} {d : LedgerDocument} (h : parse text = .ok d) :
    Sound d.records := by
  have hreader : Reader.Gives (Reader.record shape true ⟨"", []⟩) fun d => Sound d.records := by
    refine Reader.gives_record (fun field hfield d hd => ?_) true sound_nil
    rw [shape, List.mem_cons, List.mem_singleton] at hfield
    rcases hfield with rfl | rfl
    · exact .after fun version => .pure hd
    · exact (Reader.gives_map LedgerRecord.gives_read).bind fun entries hentries =>
        .pure ⟨hentries.1, hentries.2⟩
  exact hreader.document h

/-- The text of a ledger reads back as its records. -/
theorem parse_text {records : List (String × LedgerRecord)} (h : Sound records) :
    parse (ofRecords records).text = .ok (ofRecords records) := by
  have hversion : Reader.Takes .string
      ((Value.string currentVersion).chars .indented 1) currentVersion :=
    Reader.takes_text currentVersion
  have hrecords : Reader.Takes (.map LedgerRecord.read)
      ((Value.object (records.map fun e => (e.1, e.2.toJson))).chars .indented 1) records :=
    Reader.takes_map Layout.blank_indented LedgerRecord.toJson h.nodup fun e he =>
      LedgerRecord.takes_read (h.valid e he) 2
  exact Reader.document_of_takes (Reader.takes_record Layout.blank_indented
    ["interfaces", "version"]
    (.known Layout.blank_indented rfl (by decide)
      (hversion.returning fun version => LedgerDocument.mk version [])
    (.known Layout.blank_indented rfl (by decide)
      (hrecords.returning (LedgerDocument.mk currentVersion))
    (.nil _))) (by decide))

end LedgerDocument

end ForwardedIp
