import Steward.Text.Invisible

/-!
# Text/Quoted — text between quotation marks, on one line

`quote` writes a text so that it stays on one line and can be told apart from its surroundings:
quotation marks and backslashes get a backslash, the common control characters have a letter, and
all other control and invisible characters are written by number.
-/

namespace Steward.Quoted

/-- A character by number: its code point in lower-case hexadecimal digits. -/
def numbered (c : Char) : List Char :=
  ['\\', 'u', '\x7b'] ++ Nat.toDigits 16 c.toNat ++ ['\x7d']

/-- The written form of one character. -/
def escape (c : Char) : List Char :=
  match c with
  | '"' => ['\\', '"']
  | '\\' => ['\\', '\\']
  | '\t' => ['\\', 't']
  | '\r' => ['\\', 'r']
  | '\n' => ['\\', 'n']
  | '\x00' => ['\\', '0']
  | c =>
    if c.toNat < 0x20 || c.toNat == 0x7F || Invisible.test c then numbered c else [c]

/-- The written form of a list of characters, quotation marks included. -/
def quoteChars (cs : List Char) : List Char := '"' :: cs.flatMap escape ++ ['"']

/-- A text between quotation marks. -/
def quote (s : String) : String := String.ofList (quoteChars s.toList)

end Steward.Quoted
