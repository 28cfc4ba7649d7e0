import ForwardedIp.Json.Literal
import ForwardedIp.Json.Numeral
/-!
# Reading documents

A reader takes what it wants from the front of the remaining text. Documents of a known shape are
read as they stream by, so the first defect in the text decides how reading fails, and a part
that is ignored is checked for its grammar only: it may nest without limit, its numbers may be
too large and its escapes may be lone surrogates.
-/
namespace ForwardedIp.Json

/-- Takes something from the front of a text or finds a defect. -/
abbrev Reader := StateT (List Char) (Except Defect)

namespace Reader

/-- The characters allowed between the parts of a document. -/
def isGap (c : Char) : Bool := c == ' ' || c == '\n' || c == '\t' || c == '\r'

/-- Skips the gap and looks at the next character. -/
def peek : Reader (Option Char) := fun cs =>
  let cs := cs.dropWhile isGap
  .ok (cs.head?, cs)

def advance : Reader Unit := fun cs => .ok ((), cs.drop 1)

def fail (defect : Defect) : Reader α := fun _ => .error defect

def word : List Char → Reader Unit
  | [] => pure ()
  | w :: ws => fun cs =>
      match cs with
      | [] => .error .truncated
      | c :: cs => if c = w then word ws cs else .error .malformed

def literal : Reader String := fun cs => do
  let (text, rest) ← (Literal.scan cs).read
  return (String.ofList text, rest)

/-- Passes over a string literal after its opening quote. -/
def skipLiteral : Reader Unit := fun cs => (Literal.scan cs).rest.map ((), ·)

def number : Reader Number := fun cs => do
  let (numeral, rest) ← Numeral.scan true cs
  return (← numeral.value, rest)

/-- Passes over a number. -/
def skipNumber : Reader Unit := fun cs => (Numeral.scan false cs).map fun (_, rest) => ((), rest)

/-- Whether a number begins with this character. -/
def startsNumber (c : Char) : Bool := c == '-' || c.isDigit

/-- The end of the text, or a character that does not belong here. -/
def unexpected : Option Char → Defect
  | none => .truncated
  | some _ => .malformed

/-- Folds over the items of an array after its bracket, up to and without the closing one. The
fuel bounds the number of items. -/
def items (item : σ → Reader σ) : Nat → Bool → σ → Reader σ
  | 0, _, _ => fail .truncated
  | fuel + 1, first, s => do
      match ← peek with
      | some ']' => return s
      | some c =>
          if first then items item fuel false (← item s)
          else if c = ',' then
            advance
            match ← peek with
            | none => fail .truncated
            | some ']' => fail .malformed
            | some _ => items item fuel false (← item s)
          else fail .malformed
      | none => fail .truncated

/-- Takes the colon between the name and the value of a field. -/
def colon : Reader Unit := do
  let next ← peek
  if next ≠ some ':' then fail (unexpected next)
  advance

/-- Folds over the fields of an object after its brace, and takes the closing one. A field goes on
after its name, so that a bad name fails before the colon is looked at. -/
def members (name : Reader κ) (field : σ → κ → Reader σ) : Nat → Bool → σ → Reader σ
  | 0, _, _ => fail .truncated
  | fuel + 1, first, s => do
      let next ← peek
      if next = some '\x7d' then
        advance
        return s
      if !first then
        if next ≠ some ',' then fail (unexpected next)
        advance
      let quote ← peek
      if quote ≠ some '"' then fail (unexpected quote)
      advance
      members name field fuel false (← field s (← name))

/-- The text left bounds how many items or fields can follow. -/
def fuel : Reader Nat := fun cs => .ok (cs.length + 1, cs)

/-- Takes the items of an array after its bracket, and the closing one. -/
def arrayRest (item : σ → Reader σ) (s : σ) : Reader σ := do
  let s ← items item (← fuel) true s
  advance
  return s

/-- Takes the fields of an object after its brace, and the closing one. -/
def objectRest (name : Reader κ) (field : σ → κ → Reader σ) (s : σ) : Reader σ := do
  members name field (← fuel) true s

/-- Passes over a value that nests no deeper than the budget. -/
def skipWithin : Nat → Reader Unit
  | 0 => fail .truncated
  | depth + 1 => do
      match ← peek with
      | some 'n' => word ['n', 'u', 'l', 'l']
      | some 't' => word ['t', 'r', 'u', 'e']
      | some 'f' => word ['f', 'a', 'l', 's', 'e']
      | some '"' => advance; skipLiteral
      | some '[' => advance; arrayRest (fun _ => skipWithin depth) ()
      | some '\x7b' => advance; objectRest skipLiteral (fun _ _ => do colon; skipWithin depth) ()
      | some c => if startsNumber c then skipNumber else fail .malformed
      | none => fail .truncated

/-- Passes over a value of any depth: no value nests deeper than its text is long. -/
def skip : Reader Unit := do
  skipWithin (← fuel)

/-- Values nest at most this deep. -/
def depthLimit : Nat := 127

/-- Takes a value that is no array and no object, given its first character. -/
def scalar : Option Char → Reader Value
  | some 'n' => do word ['n', 'u', 'l', 'l']; return .null
  | some 't' => do word ['t', 'r', 'u', 'e']; return .bool true
  | some 'f' => do word ['f', 'a', 'l', 's', 'e']; return .bool false
  | some '"' => do advance; return .string (← literal)
  | some c => do if startsNumber c then return .number (← number) else fail .malformed
  | none => fail .truncated

/-- Takes a value that nests no deeper than the budget. -/
def valueWithin : Nat → Reader Value
  | 0 => do scalar (← peek)
  | depth + 1 => do
      match ← peek with
      | some '[' =>
          advance
          return .array (← arrayRest (fun vs => return (← valueWithin depth) :: vs) []).reverse
      | some '\x7b' =>
          advance
          return .object (← objectRest literal (fun fields key => do
            colon
            return Keyed.put key (← valueWithin depth) fields) [])
      | c => scalar c

def value : Reader Value := valueWithin depthLimit

/-- A value of another kind than the one asked for. It is a defect of shape, unless its own text
has a defect first. -/
def mismatch : Reader α := do
  match ← peek with
  | some '[' => fail .misshapen
  | some '\x7b' => fail .misshapen
  | _ =>
      let _ ← valueWithin 0
      fail .misshapen

/-- Reads a whole text: nothing but a gap may follow the document. -/
def document (reader : Reader α) (text : String) : Except Defect α := do
  let (a, rest) ← reader text.toList
  if (rest.dropWhile isGap).isEmpty then return a else .error .malformed

end Reader

/-- Reads a text as a value. -/
def Value.parse (text : String) : Except Defect Value := Reader.document Reader.value text

end ForwardedIp.Json
