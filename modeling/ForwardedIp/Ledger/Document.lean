import ForwardedIp.Json.Printer
import ForwardedIp.Json.Shape
import ForwardedIp.Keyed
import ForwardedIp.Timestamp
/-!
# Ledger documents

The ledger on disk is a JSON document: a version and, for each hardware address, the addresses
bound there with the time of the last change. Any version is read; the current one is written.
-/
namespace ForwardedIp

open Json

/-- A record on disk. -/
structure LedgerRecord where
  forwardedIps : List String
  lastUpdated : Timestamp
  deriving DecidableEq

namespace LedgerRecord

/-- Takes a point in time from a document. -/
def readTimestamp : Reader Timestamp := do
  match Timestamp.parse? (← Reader.string) with
  | some t => return t
  | none => Reader.fail .misshapen

def shape : List (Reader.Field LedgerRecord) :=
  [⟨"forwarded_ips", fun r => return { r with forwardedIps := ← Reader.list .string }⟩,
    ⟨"last_updated", fun r => return { r with lastUpdated := ← readTimestamp }⟩]

/-- Takes a record from a document. All its fields must be there. -/
def read : Reader LedgerRecord := Reader.record shape true ⟨[], ⟨0, 0, 0⟩⟩

def toJson (r : LedgerRecord) : Value :=
  .object [("forwarded_ips", .strings r.forwardedIps),
    ("last_updated", .string r.lastUpdated.text)]

end LedgerRecord

structure LedgerDocument where
  version : String
  records : List (String × LedgerRecord)
  deriving DecidableEq

namespace LedgerDocument

/-- The version that is written. -/
def currentVersion : String := "1.0"

/-- The document of these records in the current version. -/
def ofRecords (records : List (String × LedgerRecord)) : LedgerDocument :=
  ⟨currentVersion, records⟩

def shape : List (Reader.Field LedgerDocument) :=
  [⟨"version", fun d => return { d with version := ← Reader.string }⟩,
    ⟨"interfaces", fun d => return { d with records := ← Reader.map LedgerRecord.read }⟩]

/-- Reads a ledger document. All its fields must be there. -/
def parse (text : String) : Except Defect LedgerDocument :=
  Reader.document (Reader.record shape true ⟨"", []⟩) text

def toJson (d : LedgerDocument) : Value :=
  .object [("version", .string d.version),
    ("interfaces", .object (d.records.map fun (key, r) => (key, r.toJson)))]

def text (d : LedgerDocument) : String := d.toJson.indented

end LedgerDocument

end ForwardedIp
