/-!
# Text/Wide — text in sixteen-bit units

The host passes text as sixteen-bit units.  `encode` writes a character as one unit or as a pair
of surrogates.  `decode` reads any list of units: it stops at the first zero unit, and a surrogate
that is not part of a pair becomes the replacement character.
-/

namespace Steward.Wide

/-- A unit that can begin a pair. -/
def isHigh (u : UInt16) : Bool := 0xD800 ≤ u && u < 0xDC00
/-- A unit that can end a pair. -/
def isLow (u : UInt16) : Bool := 0xDC00 ≤ u && u < 0xE000

/-- Stands for a unit that is no text. -/
def replacement : Char := '\uFFFD'

/-- The units of one character. -/
def unitsOf (c : Char) : List UInt16 :=
  if c.toNat < 0x10000 then [UInt16.ofNat c.toNat]
  else
    let v := c.toNat - 0x10000
    [UInt16.ofNat (0xD800 + v / 0x400), UInt16.ofNat (0xDC00 + v % 0x400)]

/-- The character of a unit that stands alone. -/
def single (u : UInt16) : Char :=
  if isHigh u || isLow u then replacement else Char.ofNat u.toNat

/-- The character of a pair of surrogates. -/
def pair (h l : UInt16) : Char :=
  Char.ofNat (0x10000 + (h.toNat - 0xD800) * 0x400 + (l.toNat - 0xDC00))

/-- The units of a list of characters. -/
def encodeChars (cs : List Char) : List UInt16 := cs.flatMap unitsOf

/-- The characters of a list of units, with lone surrogates replaced. -/
def decodeChars : List UInt16 → List Char
  | [] => []
  | [u] => [single u]
  | u :: v :: us =>
    if isHigh u && isLow v then pair u v :: decodeChars us
    else single u :: decodeChars (v :: us)

/-- The units of a text. -/
def encode (s : String) : List UInt16 := encodeChars s.toList

/-- The text in a list of units, up to the first zero unit. -/
def decode (us : List UInt16) : String :=
  String.ofList (decodeChars (us.takeWhile (· != 0)))

/-- The startup arguments the host passes, one list of units each. -/
def decodeArgs (raw : List (List UInt16)) : List String := raw.map decode

end Steward.Wide
