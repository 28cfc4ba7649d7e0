import ForwardedIp.Text.GraphemeExtend
import ForwardedIp.Text.Unprintable
/-!
# Quoted text in messages

Messages show a text that was not understood in double quotes, with everything a terminal would
hide or combine written as an escape, so that two different texts never look the same.
-/
namespace ForwardedIp.Text

/-- A code point in braces, in hexadecimal without padding. -/
def codePointEscape (c : Char) : List Char :=
  ['\\', 'u', '\x7b'] ++ Nat.toDigits 16 c.toNat ++ ['\x7d']

/-- A character as it stands inside quotes. -/
def quotedChar (c : Char) : List Char :=
  match c with
  | '\x00' => ['\\', '0']
  | '\t' => ['\\', 't']
  | '\r' => ['\\', 'r']
  | '\n' => ['\\', 'n']
  | '"' => ['\\', '"']
  | '\\' => ['\\', '\\']
  | c => if isGraphemeExtend c || isUnprintable c then codePointEscape c else [c]

/-- A text in double quotes, with whatever cannot be seen escaped. -/
def quoted (s : String) : String :=
  String.ofList ('"' :: s.toList.flatMap quotedChar ++ ['"'])

end ForwardedIp.Text
