/-!
# Defects of JSON documents

What is wrong with a document that could not be read, by kind.
-/
namespace ForwardedIp.Json

/-- Why a document was not read. -/
inductive Defect where
  /-- The text breaks the grammar, or holds a number or an escape without a value. -/
  | malformed
  /-- The text ends before the document does. -/
  | truncated
  /-- The document is well formed and has another shape than the one asked for. -/
  | misshapen
  deriving DecidableEq

def Defect.message : Defect → String
  | .malformed => "malformed text"
  | .truncated => "text ends too early"
  | .misshapen => "unexpected shape"

end ForwardedIp.Json
