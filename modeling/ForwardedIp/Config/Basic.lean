import ForwardedIp.Fault
/-!
# Configuration

Where the metadata comes from, where the ledger is kept, where the local overrides are, and how
the reconciler is paced. Durations are whole seconds in 64 bits.
-/
namespace ForwardedIp

structure MetadataConfig where
  url : String := "http://169.254.169.254/computeMetadata/v1/"
  timeoutSecs : UInt64 := 10
  /-- Whether the server holds a request until something changes. -/
  waitForChange : Bool := true
  waitTimeoutSecs : UInt64 := 60
  deriving DecidableEq

inductive LedgerConfig where
  | file (path : String)
  | memory
  deriving DecidableEq

structure EngineConfig where
  pollIntervalSecs : UInt64 := 5
  retryDelaySecs : UInt64 := 5
  eventChannelCapacity : UInt64 := 1000
  deriving DecidableEq

/-- The path of the ledger file unless another one is given. -/
def LedgerConfig.defaultPath : String := "/var/lib/fwdip/ledger.json"

structure Config where
  metadata : MetadataConfig := {}
  ledger : LedgerConfig := .file LedgerConfig.defaultPath
  localConfigPath : Option String := none
  engine : EngineConfig := {}
  deriving DecidableEq

/-- What is wrong with a configuration, told when a condition holds. -/
def Config.refuseIf (bad : Bool) (text : String) : Except Fault Unit :=
  if bad then .error (.config text) else .ok ()

def MetadataConfig.isHttp (url : String) : Bool :=
  "http://".toList.isPrefixOf url.toList || "https://".toList.isPrefixOf url.toList

def MetadataConfig.validate (c : MetadataConfig) : Except Fault Unit := do
  Config.refuseIf c.url.isEmpty "Metadata URL cannot be empty"
  Config.refuseIf (!isHttp c.url)
    ("Metadata URL must use HTTP or HTTPS scheme. Got: " ++ c.url)
  Config.refuseIf (c.timeoutSecs == 0) "Metadata timeout must be > 0"
  Config.refuseIf (c.waitForChange && c.waitTimeoutSecs == 0) "Metadata wait timeout must be > 0"

def LedgerConfig.validate : LedgerConfig → Except Fault Unit
  | file path => Config.refuseIf path.isEmpty "Ledger file path cannot be empty"
  | memory => .ok ()

def LedgerConfig.typeName : LedgerConfig → String
  | file _ => "file"
  | memory => "memory"

def EngineConfig.validate (c : EngineConfig) : Except Fault Unit := do
  Config.refuseIf (c.eventChannelCapacity == 0) "Event channel capacity must be > 0"
  Config.refuseIf (c.pollIntervalSecs == 0) "Poll interval must be > 0"

/-- Checks all parts in order, and the path of the local overrides. -/
def Config.validate (c : Config) : Except Fault Unit := do
  c.metadata.validate
  c.ledger.validate
  c.engine.validate
  Config.refuseIf (c.localConfigPath = some "") "Local config path cannot be empty"

end ForwardedIp
