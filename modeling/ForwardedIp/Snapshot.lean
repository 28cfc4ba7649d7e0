import ForwardedIp.Fault
import ForwardedIp.Json.Printer
import ForwardedIp.Json.Shape
/-!
# Metadata snapshots

A snapshot is what the metadata server declares at one moment: for each interface of the machine
the forwarded addresses that it should carry, and attributes of the instance and of its project.
Hardware addresses and forwarded addresses are kept as the texts they came as.
-/
namespace ForwardedIp

/-- The attributes that the manager understands. -/
structure Attributes where
  enableFailover : Option String := none
  failoverAddresses : Option String := none
  disableManager : Option String := none
  deriving DecidableEq

/-- The forwarded addresses declared for one hardware address. -/
structure DeclaredInterface where
  mac : String := ""
  forwardedIps : List String := []
  deriving DecidableEq

/-- What the metadata server declares. -/
structure Snapshot where
  instanceAttributes : Attributes := {}
  interfaces : List DeclaredInterface := []
  projectAttributes : Attributes := {}
  deriving DecidableEq

open Json

namespace Attributes

def shape : List (Reader.Field Attributes) :=
  [⟨"enable-wsfc", fun a => return { a with enableFailover := ← Reader.optional .string }⟩,
    ⟨"wsfc-addrs", fun a => return { a with failoverAddresses := ← Reader.optional .string }⟩,
    ⟨"disable-address-manager",
      fun a => return { a with disableManager := ← Reader.optional .string }⟩]

def read : Reader Attributes := Reader.record shape false {}

def toJson (a : Attributes) : Value :=
  let field (name : String) (text : Option String) : List (String × Value) :=
    text.toList.map fun t => (name, .string t)
  .object (field "enable-wsfc" a.enableFailover ++ field "wsfc-addrs" a.failoverAddresses ++
    field "disable-address-manager" a.disableManager)

end Attributes

namespace DeclaredInterface

def shape : List (Reader.Field DeclaredInterface) :=
  [⟨"mac", fun i => return { i with mac := ← Reader.string }⟩,
    ⟨"forwardedIps", fun i => return { i with forwardedIps := ← Reader.list .string }⟩]

def read : Reader DeclaredInterface := Reader.record shape false {}

def toJson (i : DeclaredInterface) : Value :=
  .object [("mac", .string i.mac), ("forwardedIps", .strings i.forwardedIps)]

end DeclaredInterface

namespace Snapshot

def instanceShape : List (Reader.Field Snapshot) :=
  [⟨"attributes", fun s => return { s with instanceAttributes := ← Attributes.read }⟩,
    ⟨"networkInterfaces", fun s => return { s with
      interfaces := ← Reader.list DeclaredInterface.read }⟩]

def projectShape : List (Reader.Field Snapshot) :=
  [⟨"attributes", fun s => return { s with projectAttributes := ← Attributes.read }⟩]

def shape : List (Reader.Field Snapshot) :=
  [⟨"instance", Reader.record instanceShape false⟩, ⟨"project", Reader.record projectShape false⟩]

def read : Reader Snapshot := Reader.record shape false {}

def parse (text : String) : Except Fault Snapshot :=
  match Reader.document read text with
  | .ok s => .ok s
  | .error defect => .error (.metadata ("Failed to decode metadata snapshot: " ++ defect.message))

def toJson (s : Snapshot) : Value :=
  .object
    [("instance", .object
      [("attributes", s.instanceAttributes.toJson),
        ("networkInterfaces", .array (s.interfaces.map DeclaredInterface.toJson))]),
      ("project", .object [("attributes", s.projectAttributes.toJson)])]

end Snapshot

end ForwardedIp
