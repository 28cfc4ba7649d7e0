import ForwardedIp.Config.Basic
import ForwardedIp.Files.FileSystem
import ForwardedIp.Files.Path
import ForwardedIp.Text.Blank
import ForwardedIp.Text.Digits
import ForwardedIp.Text.Quoted
/-!
# Configuration from the environment

The daemon takes its configuration from variables. Blanks around numbers and flags do not matter.
A value that cannot be read is refused at once; limits of the daemon are checked afterwards,
after those of the configuration itself.
-/
namespace ForwardedIp

/-- How much the daemon logs. -/
inductive LogLevel where
  | trace
  | debug
  | info
  | warn
  | error
  deriving DecidableEq

namespace LogLevel

/-- The levels by name. -/
def names : List (String × LogLevel) :=
  [("trace", trace), ("debug", debug), ("info", info), ("warn", warn), ("error", error)]

/-- The name of a level in capitals. -/
def capitals : LogLevel → String
  | trace => "TRACE"
  | debug => "DEBUG"
  | info => "INFO"
  | warn => "WARN"
  | error => "ERROR"

end LogLevel

structure DaemonConfig where
  core : Config := {}
  logLevel : String := "info"
  deriving DecidableEq

namespace DaemonConfig

/-- Reads digits into 64 bits. The first character that is no digit or no longer fits decides. -/
def readDigits (n : Nat) : List Char → Except String UInt64
  | [] => .ok (UInt64.ofNat n)
  | c :: cs =>
      match Text.decimalDigit? c with
      | none => .error "invalid digit found in string"
      | some d =>
          if 10 * n + d < UInt64.size then readDigits (10 * n + d) cs
          else .error "number too large to fit in target type"

def readNumber (cs : List Char) : Except String UInt64 :=
  match cs with
  | [] => .error "cannot parse integer from empty string"
  | ['+'] => .error "invalid digit found in string"
  | '+' :: rest => readDigits 0 rest
  | _ => readDigits 0 cs

def readFlag (cs : List Char) : Except String Bool :=
  if cs = "true".toList then .ok true
  else if cs = "false".toList then .ok false
  else .error "provided string was not `true` or `false`"

/-- Reads a variable, or takes the default where it is not set. -/
def variableOr (vars : String → Option String) (read : List Char → Except String α) (name : String)
    (default : α) : Except Fault α :=
  match vars name with
  | none => .ok default
  | some raw => (read (Text.trim raw.toList)).mapError fun why =>
      .other (name ++ " has an invalid value: " ++ Text.quoted raw ++ ": " ++ why)

def metadataOf (vars : String → Option String) : Except Fault MetadataConfig := do
  let default : MetadataConfig := {}
  return { default with
    url := (vars "FWDIP_METADATA_URL").getD default.url
    timeoutSecs := ← variableOr vars readNumber "FWDIP_METADATA_TIMEOUT_SECS" default.timeoutSecs
    waitForChange := ← variableOr vars readFlag "FWDIP_WAIT_FOR_CHANGE" default.waitForChange }

def ledgerOf (vars : String → Option String) : Except Fault LedgerConfig :=
  match (vars "FWDIP_LEDGER_TYPE").getD "file" with
  | "file" => .ok (.file ((vars "FWDIP_LEDGER_PATH").getD LedgerConfig.defaultPath))
  | "memory" => .ok .memory
  | other => .error (.other
      ("FWDIP_LEDGER_TYPE '" ++ other ++ "' is not supported. Supported types: file, memory"))

def engineOf (vars : String → Option String) : Except Fault EngineConfig := do
  let default : EngineConfig := {}
  return { default with
    pollIntervalSecs :=
      ← variableOr vars readNumber "FWDIP_POLL_INTERVAL_SECS" default.pollIntervalSecs
    retryDelaySecs :=
      ← variableOr vars readNumber "FWDIP_RETRY_DELAY_SECS" default.retryDelaySecs }

def ofVariables (vars : String → Option String) : Except Fault DaemonConfig := do
  let metadata ← metadataOf vars
  let ledger ← ledgerOf vars
  let engine ← engineOf vars
  return {
    core := { metadata, ledger, localConfigPath := vars "FWDIP_LOCAL_CONFIG", engine }
    logLevel := (vars "FWDIP_LOG_LEVEL").getD "info" }

/-- The level to log at. Letter case does not matter. -/
def level (c : DaemonConfig) : Except Fault LogLevel :=
  match LogLevel.names.lookup (String.ofList (c.logLevel.toList.map Char.toLower)) with
  | some l => .ok l
  | none => .error (.other ("FWDIP_LOG_LEVEL '" ++ c.logLevel ++
      "' is not valid. Valid levels: trace, debug, info, warn, error"))

/-- Checks that a number of seconds lies between one and a limit. -/
def checkRange (name : String) (secs most : UInt64) : Except Fault Unit :=
  if 1 ≤ secs ∧ secs ≤ most then .ok ()
  else .error (.other (name ++ " must be between 1 and " ++ toString most.toNat ++
    " seconds. Got: " ++ toString secs.toNat))

def checkLimits (c : DaemonConfig) : Except Fault Unit := do
  c.core.validate
  checkRange "FWDIP_METADATA_TIMEOUT_SECS" c.core.metadata.timeoutSecs 300
  checkRange "FWDIP_POLL_INTERVAL_SECS" c.core.engine.pollIntervalSecs 3600
  checkRange "FWDIP_RETRY_DELAY_SECS" c.core.engine.retryDelaySecs 300

def validate (c : DaemonConfig) : Except Fault Unit := do
  c.checkLimits
  let _ ← c.level

/-- What the user is told about a configuration within its limits: a directory that has to be
created for the ledger. -/
def notes {F : Type} [FileSystem F] (c : DaemonConfig) (files : F) : List String :=
  match c.checkLimits, c.core.ledger with
  | .ok (), .file path =>
      match Path.parent? path with
      | some dir =>
          if dir ≠ "" && !FileSystem.contains files dir then
            ["NOTE: FWDIP_LEDGER_PATH parent directory " ++ dir ++
              " does not exist and will be created"]
          else []
      | none => []
  | _, _ => []

end DaemonConfig

end ForwardedIp
