import CommandVetting.Text.Basic
import CommandVetting.Text.WordTable

/-!
# Word characters

Two classes serve two purposes: the ends of a word are found with the ASCII class, so that a
foreign letter next to a word does not hide it, and a run of word characters is of the wide class.

* `isAsciiWord`: digits, ASCII letters and the underscore;
* `isWord`: the wide class, which **agrees with the narrow one on ASCII**;
* `isBoundary`: **exactly one of two neighbours is an ASCII word character**.
-/

namespace CommandVetting

/-- An ASCII digit, an ASCII letter or the underscore. -/
def isAsciiWord (c : Char) : Bool := c.isAlphanum || c == '_'

/-- The code point of the character is in one of the closed ranges. -/
def inRanges (rs : List (Nat × Nat)) (c : Char) : Bool :=
  rs.any fun r => r.1 ≤ c.toNat && c.toNat ≤ r.2

/-- A word character of any script. -/
def isWord (c : Char) : Bool :=
  if c.toNat < 0x80 then isAsciiWord c else inRanges wordRanges c

theorem isWord_of_ascii {c : Char} (h : c.toNat < 0x80) : isWord c = isAsciiWord c := if_pos h

/-- The place between two neighbours starts or ends an ASCII word; the outside of a text is no
word character. -/
def isBoundary (before after : Option Char) : Bool :=
  before.any isAsciiWord != after.any isAsciiWord

end CommandVetting
