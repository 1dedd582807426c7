import CommandVetting.Text.Basic

/-!
# ASCII word boundaries

In pattern text `\b` is the end of a word of any script. The rules want the ends of ASCII words,
which are written `(?-u:\b)`.

* `asciiBoundaries`: **every `\b` is replaced, and a backslash pairs with the character after it**,
  so that an escaped backslash followed by `b` stays.
-/

namespace CommandVetting

/-- The pattern text for the end of an ASCII word. -/
def asciiBoundary : Text := r"(?-u:\b)"

/-- The pattern text with ASCII word boundaries in place of the general ones. -/
def asciiBoundaries : Text → Text
  | [] => []
  | '\\' :: 'b' :: r => asciiBoundary ++ asciiBoundaries r
  | '\\' :: c :: r => '\\' :: c :: asciiBoundaries r
  | c :: r => c :: asciiBoundaries r

end CommandVetting
