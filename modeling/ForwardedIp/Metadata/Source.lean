import ForwardedIp.Config.Basic
import ForwardedIp.Metadata.HttpStatus
import ForwardedIp.Snapshot
import ForwardedIp.StartFault
/-!
# The metadata server

A source of snapshots sends one request at a time. If the server is to hold requests until
something changes, each request carries the tag of the state that was seen last. A tag is kept
only with a snapshot that was delivered, and after any failure the tag is `NONE`, which the server
answers at once with the full state.
-/
namespace ForwardedIp

/-- A request to the server, before any encoding. -/
structure HttpRequest where
  url : String
  query : List (String × String)
  headers : List (String × String)
  deriving DecidableEq

/-- What comes back of a request. -/
inductive HttpReply where
  /-- The request could not be sent or answered. -/
  | failed (text : String)
  | answered (status : Nat) (etag : Option String) (body : String)
  deriving DecidableEq

/-- A source of snapshots. -/
structure MetadataSource where
  url : String
  waits : Bool
  waitTimeoutSecs : UInt64
  etag : String
  deriving DecidableEq

namespace MetadataSource

/-- What this kind of source is called. -/
def name : String := "metadata-http"

/-- The tag before any snapshot and after a failure. -/
def noTag : String := "NONE"

/-- The longest time that a request may take, in seconds. A held request takes longer. -/
def totalTimeout (c : MetadataConfig) : Nat :=
  c.timeoutSecs.toNat + (if c.waitForChange then c.waitTimeoutSecs.toNat else 0)

/-- Builds a source. `client` is the failure of the HTTP client, if it cannot be built. -/
def start (c : MetadataConfig) (client : Option String) : Except StartFault MetadataSource :=
  match c.validate, client with
  | .error fault, _ => .error (.refused fault)
  | .ok (), client =>
      if UInt64.size ≤ totalTimeout c then .error .crash
      else
        match client with
        | some text => .error (.refused (.config ("Failed to build HTTP client: " ++ text)))
        | none => .ok ⟨c.url, c.waitForChange, c.waitTimeoutSecs, noTag⟩

/-- The next request. -/
def request (s : MetadataSource) : HttpRequest where
  url := s.url
  query := [("recursive", "true"), ("alt", "json")] ++
    (if s.waits then
      [("wait_for_change", "true"), ("timeout_sec", toString s.waitTimeoutSecs.toNat),
        ("last_etag", s.etag)]
    else [])
  headers := [("Metadata-Flavor", "Google")]

/-- A tag can be used if all its characters are visible ASCII, spaces or tabs. -/
def readableTag? (tag : String) : Option String :=
  if tag.toList.all fun c => c == '\t' || (0x20 ≤ c.toNat && c.toNat < 0x7F) then some tag
  else none

/-- The snapshot of a reply, and its tag. -/
def decode : HttpReply → Except Fault (Snapshot × Option String)
  | .failed text => .error (.metadata ("Request failed: " ++ text))
  | .answered status etag body =>
      if HttpStatus.isSuccess status then
        (Snapshot.parse body).map (·, etag.bind readableTag?)
      else .error (.metadata ("HTTP error: " ++ HttpStatus.text status))

/-- Takes a reply. -/
def receive (s : MetadataSource) (r : HttpReply) : Except Fault Snapshot × MetadataSource :=
  match decode r with
  | .ok (snapshot, tag) => (.ok snapshot, { s with etag := tag.getD s.etag })
  | .error fault => (.error fault, { s with etag := noTag })

end MetadataSource

end ForwardedIp
