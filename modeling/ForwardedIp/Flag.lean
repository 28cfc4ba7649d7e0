import ForwardedIp.Text.Blank
/-!
# Flags in texts

Metadata attributes use a strict vocabulary. Local overrides, which people write by hand, use a
wider one where blanks around the word and letter case do not matter.
-/
namespace ForwardedIp.Flag

/-- The words of the strict vocabulary, with their meaning. -/
def strictWords : List (String × Bool) :=
  [("1", true), ("t", true), ("T", true), ("true", true), ("TRUE", true), ("True", true),
    ("0", false), ("f", false), ("F", false), ("false", false), ("FALSE", false),
    ("False", false)]

/-- The words of the lenient vocabulary in lower case, with their meaning. -/
def lenientWords : List (String × Bool) :=
  [("1", true), ("t", true), ("true", true), ("y", true), ("yes", true), ("on", true),
    ("0", false), ("f", false), ("false", false), ("n", false), ("no", false), ("off", false)]

def strict? (text : String) : Option Bool := strictWords.lookup text

/-- A flag in the lenient vocabulary. Only ASCII letters have a case here. -/
def lenient? (text : String) : Option Bool :=
  lenientWords.lookup (String.ofList ((Text.trim text.toList).map Char.toLower))

end ForwardedIp.Flag
