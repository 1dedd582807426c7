/-!
# Texts

A text is the list of its characters, so that a function on texts is a recursion on a list.

* `Text`, with string literals read as texts;
* `Text.padRight`: a column of a table, never cut;
* `Text.ofNat`: a number in decimal digits;
* `Text.toNat?`: **the number that decimal digits write**, after a plus sign or not;
* `Text.comesBefore`: the order of texts; `Text.afterWord`: what follows a word;
* `Text.byteLength`: the number of bytes of a text; `Text.slice`: the part of a text between two
  places, which are **counted in bytes**.
-/

namespace CommandVetting

abbrev Text := List Char

/-- A string literal stands for its characters. -/
instance : Coe String Text := ⟨String.toList⟩

namespace Text

/-- The text followed by the blanks that fill a column of `width` characters. -/
def padRight (width : Nat) (t : Text) : Text := t ++ List.replicate (width - t.length) ' '

/-- A number in decimal digits. -/
def ofNat (n : Nat) : Text := Nat.toDigits 10 n

/-- The digits of a number, without a plus sign before them. -/
def unsigned : Text → Text
  | '+' :: digits => digits
  | t => t

/-- The number that a text writes in decimal digits; a plus sign may stand before them. -/
def toNat? (t : Text) : Option Nat :=
  let digits := t.unsigned
  if digits.isEmpty || !digits.all Char.isDigit then none
  else some (digits.foldl (fun n c => 10 * n + (c.toNat - '0'.toNat)) 0)

/-- The text comes before the other in the order of a dictionary, by the codes of the characters. -/
def comesBefore (t other : Text) : Bool := t.lex other (·.toNat < ·.toNat)

/-- What follows the first word and the blank after it. -/
def afterWord (t : Text) : Text := (t.dropWhile (· != ' ')).drop 1

/-- The number of bytes of a text. -/
def byteLength : Text → Nat
  | [] => 0
  | c :: t => c.utf8Size + byteLength t

/-- The text from a place on, which is counted in bytes. -/
def dropBytes : Nat → Text → Text
  | _, [] => []
  | n, c :: t => if n == 0 then c :: t else dropBytes (n - c.utf8Size) t

/-- The text up to a place, which is counted in bytes. -/
def takeBytes : Nat → Text → Text
  | _, [] => []
  | n, c :: t => if c.utf8Size ≤ n then c :: takeBytes (n - c.utf8Size) t else []

/-- The part of a text between two places, which are counted in bytes. -/
def slice (t : Text) (start stop : Nat) : Text := (t.dropBytes start).takeBytes (stop - start)

theorem length_padRight (width : Nat) (t : Text) :
    (t.padRight width).length = max width t.length := by
  simp only [padRight, List.length_append, List.length_replicate]
  omega

end Text

end CommandVetting
