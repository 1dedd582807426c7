import CommandVetting.Text.Lines

/-!
# UTF-8

Bytes are decoded strictly: no overlong form, no surrogate, nothing past the last code point and no
character cut short.

* `decode?`: the text that the bytes spell;
* `readLines?`: the lines of a byte stream, **decoded line by line**.
-/

namespace CommandVetting.Utf8

/-- A byte that continues a character. -/
def isTail (b : UInt8) : Bool := 0x80 ≤ b && b ≤ 0xBF

/-- The six bits that a continuing byte carries. -/
def low6 (b : UInt8) : Nat := b.toNat % 0x40

def two? (a b : UInt8) : Option Char :=
  if 0xC2 ≤ a && a ≤ 0xDF && isTail b then
    some (Char.ofNat (a.toNat % 0x20 * 0x40 + low6 b))
  else none

/-- A character of three bytes: the second byte rules out overlong forms and surrogates. -/
def three? (a b c : UInt8) : Option Char :=
  if 0xE0 ≤ a && a ≤ 0xEF && isTail b && isTail c && !(a == 0xE0 && b < 0xA0) &&
      !(a == 0xED && 0x9F < b) then
    some (Char.ofNat ((a.toNat % 0x10 * 0x40 + low6 b) * 0x40 + low6 c))
  else none

/-- A character of four bytes: the second byte rules out overlong forms and what lies past the last
code point. -/
def four? (a b c d : UInt8) : Option Char :=
  if 0xF0 ≤ a && a ≤ 0xF4 && isTail b && isTail c && isTail d && !(a == 0xF0 && b < 0x90) &&
      !(a == 0xF4 && 0x8F < b) then
    some (Char.ofNat (((a.toNat % 0x08 * 0x40 + low6 b) * 0x40 + low6 c) * 0x40 + low6 d))
  else none

/-- The text that the bytes spell, if they are well formed. -/
def decode? : List UInt8 → Option Text
  | [] => some []
  | a :: r =>
    if a < 0x80 then (decode? r).map (Char.ofNat a.toNat :: ·)
    else match r with
      | [] => none
      | b :: r => match two? a b with
        | some ch => (decode? r).map (ch :: ·)
        | none => match r with
          | [] => none
          | c :: r => match three? a b c with
            | some ch => (decode? r).map (ch :: ·)
            | none => match r with
              | [] => none
              | d :: r => match four? a b c d with
                | some ch => (decode? r).map (ch :: ·)
                | none => none

/-- The lines of a byte stream, or nothing when one of them is no text. -/
def readLines? (bytes : List UInt8) : Option (List Text) :=
  ((pieces 0x0A bytes).mapM decode?).map Text.ofPieces

end CommandVetting.Utf8
