import ForwardedIp.Json.Literal
import ForwardedIp.Json.Value
/-!
# Printing documents

A document is printed on one line, or indented by two spaces a level as the ledger file is.
-/
namespace ForwardedIp.Json

/-- How the parts of a document are set apart: in front of an item at some depth, and after the
colon of a field. -/
structure Layout where
  gap : Nat → List Char
  colon : List Char

namespace Layout

/-- Everything on one line without blanks. -/
def compact : Layout := ⟨fun _ => [], []⟩

/-- One item a line, indented by two spaces a level. -/
def indented : Layout := ⟨fun depth => '\n' :: List.replicate (2 * depth) ' ', [' ']⟩

end Layout

namespace Value

mutual

/-- The characters of a value at some depth. -/
def chars (l : Layout) (depth : Nat) : Value → List Char
  | null => ['n', 'u', 'l', 'l']
  | bool true => ['t', 'r', 'u', 'e']
  | bool false => ['f', 'a', 'l', 's', 'e']
  | number n => n.text.toList
  | string s => literalChars s.toList
  | array [] => ['[', ']']
  | array (v :: vs) =>
      '[' :: (l.gap (depth + 1) ++ (chars l (depth + 1) v ++ itemsChars l depth vs))
  | object [] => ['\x7b', '\x7d']
  | object ((name, v) :: fs) =>
      '\x7b' :: (l.gap (depth + 1) ++ (literalChars name.toList ++ ':' :: (l.colon ++
        (chars l (depth + 1) v ++ fieldsChars l depth fs))))

/-- The items after the first one, and the closing bracket. -/
def itemsChars (l : Layout) (depth : Nat) : List Value → List Char
  | [] => l.gap depth ++ [']']
  | v :: vs => ',' :: (l.gap (depth + 1) ++ (chars l (depth + 1) v ++ itemsChars l depth vs))

/-- The fields after the first one, and the closing brace. -/
def fieldsChars (l : Layout) (depth : Nat) : List (String × Value) → List Char
  | [] => l.gap depth ++ ['\x7d']
  | (name, v) :: fs =>
      ',' :: (l.gap (depth + 1) ++ (literalChars name.toList ++ ':' :: (l.colon ++
        (chars l (depth + 1) v ++ fieldsChars l depth fs))))

end

/-- The value on one line. -/
def compact (v : Value) : String := String.ofList (v.chars .compact 0)

/-- The value with one item a line. -/
def indented (v : Value) : String := String.ofList (v.chars .indented 0)

end Value

end ForwardedIp.Json
