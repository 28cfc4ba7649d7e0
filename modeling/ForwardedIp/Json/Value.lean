import ForwardedIp.Decimal.Shortest
import ForwardedIp.Keyed
/-!
# JSON values

Integers of 64 bits are kept exactly; every other number is a floating-point one. An object keeps
the order of its fields and holds one value a name.
-/
namespace ForwardedIp.Json

inductive Number where
  | int (n : Int)
  | float (negative : Bool) (magnitude : Decimal.Binary64)
  deriving DecidableEq

def Number.text : Number → String
  | int n => toString n
  | float negative magnitude => (if negative then "-" else "") ++ magnitude.text

inductive Value where
  | null
  | bool (b : Bool)
  | number (n : Number)
  | string (s : String)
  | array (items : List Value)
  | object (fields : List (String × Value))

namespace Value

def int (n : Int) : Value := number (.int n)

def nat (n : Nat) : Value := int n

/-- A text or nothing. -/
def ofOption (f : α → Value) : Option α → Value
  | none => null
  | some a => f a

def strings (texts : List String) : Value := array (texts.map string)

/-- The fields of an object; other values have none. -/
def fields : Value → List (String × Value)
  | object fields => fields
  | _ => []

def field? (v : Value) (name : String) : Option Value := v.fields.lookup name

end Value

end ForwardedIp.Json
