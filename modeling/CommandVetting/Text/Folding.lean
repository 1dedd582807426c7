import CommandVetting.Text.Basic

/-!
# Case folding towards ASCII

Simple case folding sends every character to a representative of its case variants. Commands are
matched against ASCII text, so only the classes of ASCII characters matter: a letter, its capital,
and for `s` and `k` one more sign each.

* `foldCase`: **the representative of a character, as far as an ASCII character is concerned**;
* `isVariant`: equality up to folding.
-/

namespace CommandVetting

/-- The long s, a case variant of `s`. -/
def longS : Char := '\u017F'

/-- The kelvin sign, a case variant of `k`. -/
def kelvinSign : Char := '\u212A'

/-- The folded form of a character: ASCII capitals become small, the long s is `s` and the kelvin
sign is `k`. -/
def foldCase (c : Char) : Char :=
  if c == longS then 's' else if c == kelvinSign then 'k' else c.toLower

/-- The two characters are equal up to case. -/
def isVariant (c d : Char) : Bool := foldCase c == foldCase d

end CommandVetting
