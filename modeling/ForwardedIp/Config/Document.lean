import ForwardedIp.Config.Basic
import ForwardedIp.Json.Printer
import ForwardedIp.Json.Shape
/-!
# Configuration documents

A configuration is a JSON document in which everything has a default. The ledger is tagged by its
type; because the tag may come last, the rest of its document is read as values first.
-/
namespace ForwardedIp

open Json

/-- Takes a number of 64 bits. -/
def readWord : Reader UInt64 := return UInt64.ofNat (← Reader.natural)

def wordToJson (n : UInt64) : Value := .nat n.toNat

namespace MetadataConfig

def shape : List (Reader.Field MetadataConfig) :=
  [⟨"url", fun c => return { c with url := ← Reader.string }⟩,
    ⟨"timeout_secs", fun c => return { c with timeoutSecs := ← readWord }⟩,
    ⟨"wait_for_change", fun c => return { c with waitForChange := ← Reader.bool }⟩,
    ⟨"wait_timeout_secs", fun c => return { c with waitTimeoutSecs := ← readWord }⟩]

def read : Reader MetadataConfig := Reader.record shape false {}

def toJson (c : MetadataConfig) : Value :=
  .object [("url", .string c.url), ("timeout_secs", wordToJson c.timeoutSecs),
    ("wait_for_change", .bool c.waitForChange),
    ("wait_timeout_secs", wordToJson c.waitTimeoutSecs)]

end MetadataConfig

namespace EngineConfig

def shape : List (Reader.Field EngineConfig) :=
  [⟨"poll_interval_secs", fun c => return { c with pollIntervalSecs := ← readWord }⟩,
    ⟨"retry_delay_secs", fun c => return { c with retryDelaySecs := ← readWord }⟩,
    ⟨"event_channel_capacity", fun c => return { c with eventChannelCapacity := ← readWord }⟩]

def read : Reader EngineConfig := Reader.record shape false {}

def toJson (c : EngineConfig) : Value :=
  .object [("poll_interval_secs", wordToJson c.pollIntervalSecs),
    ("retry_delay_secs", wordToJson c.retryDelaySecs),
    ("event_channel_capacity", wordToJson c.eventChannelCapacity)]

end EngineConfig

namespace LedgerConfig

/-- A kind of ledger. -/
inductive Kind where
  | file
  | memory
  deriving DecidableEq

/-- Takes the type of a ledger. -/
def readKind : Reader Kind := do
  match ← Reader.string with
  | "file" => return .file
  | "memory" => return .memory
  | _ => Reader.fail .misshapen

/-- A ledger in an object, read so far: its type, and the other fields in order with repetitions. -/
structure Tagged where
  kind : Option Kind := none
  rest : List (String × Value) := []

/-- Values inside the ledger's document are two levels deep already. -/
def contentDepth : Nat := Reader.depthLimit - 2

/-- Takes a field of a ledger after its name. The type must not come twice. -/
def taggedField (t : Tagged) (name : String) : Reader Tagged := do
  if name = "type" && t.kind.isSome then Reader.fail .misshapen
  Reader.colon
  if name = "type" then return { t with kind := some (← readKind) }
  else return { t with rest := t.rest ++ [(name, ← Reader.valueWithin contentDepth)] }

/-- The path of a ledger file among its fields: there once, and a text. -/
def pathOf? (rest : List (String × Value)) : Option String :=
  match rest.filter (·.1 = "path") with
  | [(_, .string path)] => some path
  | _ => none

/-- The ledger in an object. Fields of no use are ignored. -/
def ofTagged? (t : Tagged) : Option LedgerConfig := do
  match ← t.kind with
  | .file => return .file (← pathOf? t.rest)
  | .memory => return .memory

/-- The ledger in an array: its type, and the path of a file. -/
def ofItems? (kind : Kind) (items : List Value) : Option LedgerConfig :=
  match kind, items with
  | .file, [.string path] => some (.file path)
  | .memory, [] => some .memory
  | _, _ => none

/-- A ledger of the wrong shape. -/
def orMisshapen (c : Option LedgerConfig) : Reader LedgerConfig :=
  match c with
  | some c => pure c
  | none => Reader.fail .misshapen

/-- Takes an item of a ledger in an array. The first one is the type. -/
def taggedItem (t : Option Kind × List Value) : Reader (Option Kind × List Value) := do
  match t.1 with
  | none => return (some (← readKind), [])
  | some kind => return (some kind, t.2 ++ [← Reader.valueWithin contentDepth])

def read : Reader LedgerConfig := do
  match ← Reader.peek with
  | some '\x7b' =>
      Reader.advance
      orMisshapen (ofTagged? (← Reader.objectRest Reader.literal taggedField {}))
  | some '[' =>
      Reader.advance
      let (kind, items) ← Reader.arrayRest taggedItem (none, [])
      orMisshapen (kind.bind (ofItems? · items))
  | _ => Reader.mismatch

def toJson : LedgerConfig → Value
  | file path => .object [("type", .string "file"), ("path", .string path)]
  | memory => .object [("type", .string "memory")]

end LedgerConfig

namespace Config

def shape : List (Reader.Field Config) :=
  [⟨"metadata", fun c => return { c with metadata := ← MetadataConfig.read }⟩,
    ⟨"ledger", fun c => return { c with ledger := ← LedgerConfig.read }⟩,
    ⟨"local_config_path",
      fun c => return { c with localConfigPath := ← Reader.optional Reader.string }⟩,
    ⟨"engine", fun c => return { c with engine := ← EngineConfig.read }⟩]

def parse (text : String) : Except Defect Config :=
  Reader.document (Reader.record shape false {}) text

def toJson (c : Config) : Value :=
  .object [("metadata", c.metadata.toJson), ("ledger", c.ledger.toJson),
    ("local_config_path", .ofOption .string c.localConfigPath), ("engine", c.engine.toJson)]

end Config

end ForwardedIp
