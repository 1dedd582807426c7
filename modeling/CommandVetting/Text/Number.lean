import CommandVetting.Text.Basic

/-!
# Numbers in text

* `Text.isNumber`: a decimal number, with a sign, a point and an exponent or without, or the name of
  infinity or of what is not a number.
-/

namespace CommandVetting

namespace Text

/-- The text without a sign before it. -/
def dropSign : Text → Text
  | '+' :: t => t
  | '-' :: t => t
  | t => t

/-- At least one digit and nothing else. -/
def isDigits (t : Text) : Bool := !t.isEmpty && t.all Char.isDigit

/-- Nothing, or an exponent with its mark. -/
def isExponent : Text → Bool
  | [] => true
  | c :: t => c.toLower == 'e' && isDigits (dropSign t)

/-- The fraction after the point of a number, and what follows it. -/
def splitFraction : Text → Text × Text
  | '.' :: t => (t.takeWhile Char.isDigit, t.dropWhile Char.isDigit)
  | t => ([], t)

/-- A number without a sign, with a digit before the point or after it. -/
def isUnsignedNumber (t : Text) : Bool :=
  let (fraction, rest) := splitFraction (t.dropWhile Char.isDigit)
  !(t.takeWhile Char.isDigit ++ fraction).isEmpty && isExponent rest

/-- The names among the numbers, in small letters. -/
def numberNames : List Text := ["inf", "infinity", "nan"]

/-- The text is a number; its letters may be capitals. -/
def isNumber (t : Text) : Bool :=
  numberNames.contains ((dropSign t).map Char.toLower) || isUnsignedNumber (dropSign t)

end Text

end CommandVetting
