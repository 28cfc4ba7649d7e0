/-!
# Bad input that was reported before

Each bad text is reported once. The set decides nothing else.
-/
namespace ForwardedIp

/-- The bad texts reported so far. -/
structure BadInputSet where
  seen : List String := []
  deriving DecidableEq

namespace BadInputSet

def contains (s : BadInputSet) (raw : String) : Bool := s.seen.contains raw

def size (s : BadInputSet) : Nat := s.seen.length

def insert (s : BadInputSet) (raw : String) : BadInputSet :=
  if s.contains raw then s else ⟨s.seen ++ [raw]⟩

/-- Adds a text, and says whether it was not there yet. -/
def firstReport (s : BadInputSet) (raw : String) : Bool × BadInputSet :=
  (!s.contains raw, s.insert raw)

@[simp] theorem contains_insert (s : BadInputSet) (raw other : String) :
    (s.insert raw).contains other = (s.contains other || other == raw) := by
  unfold insert
  split
  · next h =>
      by_cases ho : other = raw
      · subst ho; simp [h]
      · simp [ho]
  · by_cases ho : other = raw <;> simp [contains, ho]

end BadInputSet

end ForwardedIp
