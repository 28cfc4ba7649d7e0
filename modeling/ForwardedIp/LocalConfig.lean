import ForwardedIp.Fault
import ForwardedIp.Files.FileSystem
import ForwardedIp.Json.Reader
/-!
# Local overrides

The operator of a machine can override settings in a file of sections with keys. Texts, flags and
numbers count, as texts; everything else in the file is passed over.
-/
namespace ForwardedIp

/-- Overrides by section and key. A section without keys leaves no trace. -/
structure LocalConfig where
  sections : List (String × List (String × String)) := []
  deriving DecidableEq

namespace LocalConfig

def empty : LocalConfig := {}

def get? (c : LocalConfig) (heading key : String) : Option String := do
  (← c.sections.lookup heading).lookup key

def set (c : LocalConfig) (heading key value : String) : LocalConfig :=
  let keys := (c.sections.lookup heading).getD []
  ⟨Keyed.put heading (Keyed.put key value keys) c.sections⟩

def isEmpty (c : LocalConfig) : Bool := c.sections.isEmpty

/-- Overrides by triples of section, key and value; the last of equal keys counts. -/
def ofEntries (entries : List (String × String × String)) : LocalConfig :=
  entries.foldl (fun c e => c.set e.1 e.2.1 e.2.2) empty

/-- A value as text, if it has one. -/
def scalarText? : Json.Value → Option String
  | .string s => some s
  | .bool b => some (if b then "true" else "false")
  | .number n => some n.text
  | _ => none

/-- The usable keys of a section. -/
def entriesOfSection (field : String × Json.Value) : List (String × String × String) :=
  field.2.fields.filterMap fun (key, value) => (scalarText? value).map (field.1, key, ·)

/-- The overrides of a document. -/
def ofJson : Json.Value → Except Fault LocalConfig
  | .object fields => .ok (ofEntries (fields.flatMap entriesOfSection))
  | _ => .error (.config "Local config must be a JSON object of sections")

def parse (text : String) : Except Fault LocalConfig :=
  match Json.Value.parse text with
  | .ok v => ofJson v
  | .error defect => .error (.json defect)

/-- Reads the overrides of a file. A file that is not there holds none. -/
def load [FileSystem F] (files : F) (path : String) : Except Fault LocalConfig :=
  match FileSystem.readText files path with
  | .ok text =>
      match parse text with
      | .ok c => .ok c
      | .error fault =>
          .error (.config ("Failed to parse local config " ++ path ++ ": " ++ fault.message))
  | .error (.io .notFound) => .ok empty
  | .error fault =>
      .error (.config ("Failed to read local config " ++ path ++ ": " ++ fault.message))

end LocalConfig

end ForwardedIp
