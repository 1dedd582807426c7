import CommandVetting.Text.AlphanumericTable
import CommandVetting.Text.Word

/-!
# Letters and numbers

* `isAlphanumeric`: a letter or a number of any script, which **agrees with the standard library
  on ASCII**;
* `isAlphabetic`: a letter of any script.
-/

namespace CommandVetting

/-- A letter or a number of any script. -/
def isAlphanumeric (c : Char) : Bool :=
  if c.toNat < 0x80 then c.isAlphanum
  else isWord c && !inRanges signRanges c || inRanges numberRanges c

/-- A letter of any script. -/
def isAlphabetic (c : Char) : Bool :=
  if c.toNat < 0x80 then c.isAlpha
  else isWord c && !inRanges signRanges c && !inRanges digitRanges c

theorem isAlphanumeric_of_ascii {c : Char} (h : c.toNat < 0x80) :
    isAlphanumeric c = c.isAlphanum := if_pos h

theorem isAlphanumeric_of_isAlphabetic {c : Char} (h : isAlphabetic c = true) :
    isAlphanumeric c = true := by
  unfold isAlphabetic at h
  unfold isAlphanumeric
  split
  · next hc =>
    rw [if_pos hc] at h
    simp [Char.isAlphanum, h]
  · next hc =>
    rw [if_neg hc, Bool.and_eq_true] at h
    rw [h.1, Bool.true_or]

end CommandVetting
