import ForwardedIp.Json.Defect
import ForwardedIp.Text.Digits
/-!
# String literals

A literal is read in two steps. The scan cuts the text after the opening quote into plain
characters and 16-bit escapes, up to the closing quote or the first defect. The second step joins
surrogate escapes to characters. Ignored parts of a document take the first step only, so a lone
surrogate is a defect only where the string is wanted.
-/
namespace ForwardedIp.Json

/-- A part of a literal. -/
inductive Piece where
  | char (c : Char)
  | unit (n : Nat)
  deriving DecidableEq

/-- A scanned literal: its parts, and the text after the closing quote. -/
structure Literal where
  pieces : List Piece
  rest : Except Defect (List Char)

namespace Literal

/-- A literal that ends here. -/
def closed (rest : List Char) : Literal := ⟨[], .ok rest⟩

/-- A literal that breaks off here. -/
def broken (defect : Defect) : Literal := ⟨[], .error defect⟩

def cons (p : Piece) (l : Literal) : Literal := ⟨p :: l.pieces, l.rest⟩

/-- What the escapes of one letter stand for. -/
def escaped? : Char → Option Char
  | '"' => some '"'
  | '\\' => some '\\'
  | '/' => some '/'
  | 'b' => some '\x08'
  | 'f' => some '\x0c'
  | 'n' => some '\n'
  | 'r' => some '\r'
  | 't' => some '\t'
  | _ => none

/-- Four hexadecimal digits that are not there: the text is too short if it has less than four
bytes left. -/
def shortQuad (cs : List Char) : Defect :=
  if (String.ofList cs).utf8ByteSize < 4 then .truncated else .malformed

/-- Cuts the text after the opening quote into the parts of a literal. -/
def scan : List Char → Literal
  | [] => broken .truncated
  | '"' :: rest => closed rest
  | '\\' :: 'u' :: a :: b :: c :: d :: rest =>
      match Text.ofHex? [a, b, c, d] with
      | some n => (scan rest).cons (.unit n)
      | none => broken .malformed
  | '\\' :: 'u' :: rest => broken (shortQuad rest)
  | '\\' :: e :: rest =>
      match escaped? e with
      | some c => (scan rest).cons (.char c)
      | none => broken .malformed
  | ['\\'] => broken .truncated
  | c :: rest => if c.toNat < 0x20 then broken .malformed else (scan rest).cons (.char c)

/-- The first half of a surrogate pair. -/
def isLeading (n : Nat) : Bool := 0xD800 ≤ n && n ≤ 0xDBFF

/-- The second half of a surrogate pair. -/
def isTrailing (n : Nat) : Bool := 0xDC00 ≤ n && n ≤ 0xDFFF

/-- The character of a surrogate pair. -/
def ofPair (n m : Nat) : Char := Char.ofNat ((n - 0xD800) * 0x400 + (m - 0xDC00) + 0x10000)

/-- Joins surrogates. `last` is the defect of a text that ends after a leading half. -/
def join (last : Defect) : List Piece → Except Defect (List Char)
  | [] => .ok []
  | .char c :: rest => (join last rest).map (c :: ·)
  | .unit n :: rest =>
      if isTrailing n then .error .malformed
      else if isLeading n then
        match rest with
        | [] => .error last
        | .char _ :: _ => .error .malformed
        | .unit m :: rest =>
            if isTrailing m then (join last rest).map (ofPair n m :: ·) else .error .malformed
      else (join last rest).map (Char.ofNat n :: ·)

/-- The characters of a literal and the text after it. -/
def read (l : Literal) : Except Defect (List Char × List Char) :=
  match l.rest with
  | .ok rest => (join .malformed l.pieces).map (·, rest)
  | .error defect => (join defect l.pieces).bind fun _ => .error defect

end Literal

/-- Control characters that have an escape of one letter. -/
def letterEscape? : Char → Option Char
  | '"' => some '"'
  | '\\' => some '\\'
  | '\x08' => some 'b'
  | '\x0c' => some 'f'
  | '\n' => some 'n'
  | '\r' => some 'r'
  | '\t' => some 't'
  | _ => none

/-- A character as it is written in a literal: quote, backslash and control characters escaped. -/
def literalChar (c : Char) : List Char :=
  match letterEscape? c with
  | some e => ['\\', e]
  | none =>
      if c.toNat < 0x20 then ['\\', 'u', '0', '0'] ++ Text.hexPair (UInt8.ofNat c.toNat) else [c]

/-- A literal with both quotes. -/
def literalChars (cs : List Char) : List Char := '"' :: cs.flatMap literalChar ++ ['"']

end ForwardedIp.Json
