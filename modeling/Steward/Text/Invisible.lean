import Steward.Text.Invisible.Combining
import Steward.Text.Invisible.Unassigned

/-!
# Text/Invisible — characters that show nothing by themselves

A character beyond ASCII shows nothing by itself if it is *blank*, *combining*, or *unassigned*.
Each of the three is given as ranges of code points; a printer that must be unambiguous escapes
them all.
-/

namespace Steward.Invisible

/-- Control characters, separators, format characters, fillers and private use. -/
def blank : List (Nat × Nat) :=
  [(0x80, 0xa0), (0xad, 0xad), (0x600, 0x605), (0x61c, 0x61c), (0x6dd, 0x6dd), (0x70f, 0x70f),
   (0x890, 0x891), (0x8e2, 0x8e2), (0x115f, 0x1160), (0x1680, 0x1680), (0x180e, 0x180e),
   (0x2000, 0x200f), (0x2028, 0x202f), (0x205f, 0x2064), (0x2066, 0x206f), (0x3000, 0x3000),
   (0x3164, 0x3164), (0xe000, 0xf8ff), (0xfeff, 0xfeff), (0xffa0, 0xffa0), (0xfff9, 0xfffb),
   (0x110bd, 0x110bd), (0x110cd, 0x110cd), (0x13430, 0x1343f), (0x1bca0, 0x1bca3),
   (0x1d173, 0x1d17a), (0xe0001, 0xe0001), (0xe0020, 0xe007f), (0xf0000, 0xffffd),
   (0x100000, 0x10fffd)]

/-- The character is in one of the ranges. -/
def within (ranges : List (Nat × Nat)) (c : Char) : Bool :=
  ranges.any fun r => r.1 ≤ c.toNat && c.toNat ≤ r.2

/-- The character beyond ASCII shows nothing by itself. -/
def test (c : Char) : Bool :=
  0x80 ≤ c.toNat && (within blank c || within combining c || within unassigned c)

end Steward.Invisible
