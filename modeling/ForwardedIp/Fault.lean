import ForwardedIp.Json.Defect
/-!
# Faults

Every failure of the manager names the concern that it belongs to. A fault of a host, a store or
a source is data: the manager records it and goes on.
-/
namespace ForwardedIp

/-- A failure, by the concern that it belongs to. -/
inductive Fault where
  | backend (text : String)
  | ledger (text : String)
  | metadata (text : String)
  | config (text : String)
  | io (text : String)
  | json (defect : Json.Defect)
  | notFound (text : String)
  | invalidInput (text : String)
  | other (text : String)
  deriving DecidableEq

namespace Fault

def message : Fault → String
  | backend text => "Network backend error: " ++ text
  | ledger text => "Ledger store error: " ++ text
  | metadata text => "Metadata error: " ++ text
  | config text => "Configuration error: " ++ text
  | io text => "I/O error: " ++ text
  | json defect => "JSON error: " ++ defect.message
  | notFound text => "Not found: " ++ text
  | invalidInput text => "Invalid input: " ++ text
  | other text => text

/-- A missing thing is told apart from a thing that could not be read. -/
def isNotFound : Fault → Bool
  | notFound _ => true
  | _ => false

@[simp] theorem isNotFound_iff (f : Fault) : f.isNotFound = true ↔ ∃ text, f = notFound text := by
  cases f <;> simp [isNotFound]

end Fault

end ForwardedIp
