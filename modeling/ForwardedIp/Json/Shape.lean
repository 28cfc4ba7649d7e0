import ForwardedIp.Json.Reader
/-!
# Reading documents of a known shape

Texts, flags, 64-bit naturals, lists, maps and records. A record is an object, in which unknown
fields are ignored and a known field must not come twice, or an array of its fields in order. A
record either demands all its fields or has defaults for all.
-/
namespace ForwardedIp.Json.Reader

def string : Reader String := do
  match ← peek with
  | some '"' => advance; literal
  | _ => mismatch

def bool : Reader Bool := do
  match ← peek with
  | some 't' => word ['t', 'r', 'u', 'e']; return true
  | some 'f' => word ['f', 'a', 'l', 's', 'e']; return false
  | _ => mismatch

/-- Takes a natural number of 64 bits. Floating-point numbers are none, whatever their value. -/
def natural : Reader Nat := do
  match ← peek with
  | some c =>
      if startsNumber c then
        match ← number with
        | .int n => if 0 ≤ n then return n.toNat else fail .misshapen
        | .float _ _ => fail .misshapen
      else mismatch
  | none => mismatch

def optional (reader : Reader α) : Reader (Option α) := do
  match ← peek with
  | some 'n' => word ['n', 'u', 'l', 'l']; return none
  | _ => return some (← reader)

def list (item : Reader α) : Reader (List α) := do
  match ← peek with
  | some '[' =>
      advance
      return (← arrayRest (fun as => return (← item) :: as) []).reverse
  | _ => mismatch

/-- Takes a map. The last value of a key counts. -/
def map (item : Reader α) : Reader (List (String × α)) := do
  match ← peek with
  | some '\x7b' =>
      advance
      objectRest literal (fun entries key => do
        colon
        return Keyed.put key (← item) entries) []
  | _ => mismatch

/-- A field of a record: its name, and how its value completes the record read so far. -/
structure Field (σ : Type) where
  name : String
  read : σ → Reader σ

/-- Takes one field of an object after its name. The names seen so far come along. -/
def namedField (fields : List (Field σ)) (seen : List String × σ) (name : String) :
    Reader (List String × σ) := do
  match fields.find? (·.name = name) with
  | none =>
      colon
      skip
      return seen
  | some field =>
      if seen.1.contains name then fail .misshapen
      colon
      return (name :: seen.1, ← field.read seen.2)

/-- Takes the fields of a record from an array, after its bracket. -/
def positional (demanded : Bool) : List (Field σ) → Bool → σ → Reader σ
  | [], _, s => do
      let next ← peek
      if next ≠ some ']' then fail (unexpected next)
      advance
      return s
  | field :: fields, first, s => do
      let next ← peek
      if next = some ']' then
        if demanded then fail .misshapen
        advance
        return s
      if !first then
        if next ≠ some ',' then fail (unexpected next)
        advance
        let item ← peek
        if item = none ∨ item = some ']' then fail (unexpected item)
      else if next = none then fail .truncated
      positional demanded fields false (← field.read s)

/-- Takes a record, starting from its defaults. -/
def record (fields : List (Field σ)) (demanded : Bool) (start : σ) : Reader σ := do
  match ← peek with
  | some '\x7b' =>
      advance
      let (seen, s) ← objectRest literal (namedField fields) ([], start)
      if demanded && !fields.all (seen.contains ·.name) then fail .misshapen
      return s
  | some '[' =>
      advance
      positional demanded fields true start
  | _ => mismatch

end ForwardedIp.Json.Reader
