import CommandVetting.Text.Basic

/-!
# Blanks

White space is the set of characters with the property White_Space. A command is read without the
white space and the byte order marks around it.

* `isBlank`: white space, and **not** the information separators below the space character;
* `isPadding`: what may stand around a command;
* `Text.trim`: **the text without the padding at its two ends**;
* `Text.trimBlanks`: the text without the white space at its two ends.
-/

namespace CommandVetting

/-- White space: the property White_Space. -/
def isBlank (c : Char) : Bool :=
  let n := c.toNat
  (0x09 ≤ n && n ≤ 0x0D) || n == 0x20 || n == 0x85 || n == 0xA0 || n == 0x1680 ||
    (0x2000 ≤ n && n ≤ 0x200A) || n == 0x2028 || n == 0x2029 || n == 0x202F || n == 0x205F ||
    n == 0x3000

def byteOrderMark : Char := '\uFEFF'

/-- Padding around a command: white space and byte order marks. -/
def isPadding (c : Char) : Bool := isBlank c || c == byteOrderMark

/-- Every blank of the standard library is white space. -/
theorem isBlank_of_isWhitespace {c : Char} (h : c.isWhitespace = true) : isBlank c = true := by
  simp only [Char.isWhitespace, Bool.or_eq_true, decide_eq_true_eq] at h
  rcases h with ((rfl | rfl) | rfl) | rfl <;> decide

namespace Text

def trimStart (t : Text) : Text := t.dropWhile isPadding

def trimEnd (t : Text) : Text := (t.reverse.dropWhile isPadding).reverse

/-- The text without the padding at its two ends. -/
def trim (t : Text) : Text := t.trimStart.trimEnd

/-- The text without the white space at its two ends. -/
def trimBlanks (t : Text) : Text := ((t.dropWhile isBlank).reverse.dropWhile isBlank).reverse

end Text

end CommandVetting
