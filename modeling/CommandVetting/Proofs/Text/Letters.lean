import Mathlib.Data.List.TakeWhile
import Mathlib.Tactic.Common
import CommandVetting.Text.Blank
import CommandVetting.Text.Word
import CommandVetting.Text.Folding

/-!
# Letters and padding

* `toNat_ofNat`, `toNat_range`: the code points of characters;
* `forall_ascii`, `forall_isPadding`: **a property of all ASCII characters, or of all padding, is
  checked character by character**;
* `toLower_cases`, `foldCase_cases`: what has to be checked of a character and its small letter, or its
  folding;
* `isAsciiWord_of_le`: ASCII words have no other characters;
* `isAsciiWord_of_isPadding`: padding is no part of an ASCII word;
* `isPadding_foldCase`, `isPadding_eq_of_isVariant`: case folding keeps padding and makes none;
* `span_append`, `head?_dropWhile`: the characters of one kind at the front of a text, and what follows;
* `isWord_foldCase`, `isWord_of_isPadding`: case folding keeps the word characters of every script, and
  padding is none of them.
-/

namespace CommandVetting

/-! ## Code points -/

theorem toNat_ofNat {n : Nat} (h : n < 0xD800 ∨ 0xDFFF < n ∧ n < 0x110000) :
    (Char.ofNat n).toNat = n := by
  have hn : n.isValidChar := h
  rw [Char.ofNat, dif_pos hn]
  rfl

/-- No character is a surrogate. -/
theorem toNat_range (c : Char) : c.toNat < 0xD800 ∨ 0xDFFF < c.toNat ∧ c.toNat < 0x110000 := c.valid

/-! ## ASCII -/

theorem forall_ascii {P : Char → Prop} (h : ∀ n < 0x80, P (Char.ofNat n)) {c : Char}
    (hc : c.toNat < 0x80) : P c := by
  have h' := h c.toNat hc
  rwa [Char.ofNat_toNat] at h'

theorem toLower_of_le {c : Char} (h : 0x80 ≤ c.toNat) : c.toLower = c := by
  refine dif_neg fun hc => ?_
  have h1 : c.toNat ≤ 'Z'.toNat := hc.2
  have h2 : 'Z'.toNat = 0x5A := rfl
  omega

/-- Only ASCII characters have small letters of their own. -/
theorem toLower_cases {P : Char → Char → Prop} (hascii : ∀ n < 0x80, P (Char.ofNat n) (Char.ofNat n).toLower)
    (hself : ∀ c : Char, 0x80 ≤ c.toNat → P c c) (c : Char) : P c c.toLower := by
  by_cases hc : c.toNat < 0x80
  · exact forall_ascii (P := fun c => P c c.toLower) hascii hc
  · rw [toLower_of_le (by omega)]
    exact hself c (by omega)

theorem toLower_lt_iff (c : Char) : c.toLower.toNat < 0x80 ↔ c.toNat < 0x80 :=
  toLower_cases (P := fun c d => d.toNat < 0x80 ↔ c.toNat < 0x80) (by decide) (fun _ _ => .rfl) c

theorem isAsciiWord_toLower (c : Char) : isAsciiWord c.toLower = isAsciiWord c :=
  toLower_cases (P := fun c d => isAsciiWord d = isAsciiWord c) (by decide) (fun _ _ => rfl) c

theorem isAsciiWord_of_le {c : Char} (h : 0x80 ≤ c.toNat) : isAsciiWord c = false := by
  rw [← Bool.not_eq_true]
  intro hc
  have hcases : (c.isUpper || c.isLower || c.isDigit || c == '_') = true := hc
  simp only [Bool.or_eq_true, beq_iff_eq] at hcases
  rcases hcases with ((hupper | hlower) | hdigit) | rfl
  · have hZ : c.toNat ≤ 0x5A := (of_decide_eq_true hupper).2
    omega
  · have hz : c.toNat ≤ 0x7A := of_decide_eq_true (Bool.and_eq_true_iff.mp hlower).2
    omega
  · have h9 : c.toNat ≤ 0x39 := of_decide_eq_true (Bool.and_eq_true_iff.mp hdigit).2
    omega
  · exact absurd h (by decide)

/-! ## Folding -/

theorem foldCase_eq_toLower {c : Char} (hs : c ≠ longS) (hk : c ≠ kelvinSign) :
    foldCase c = c.toLower := by
  simp [foldCase, hs, hk]

/-- Apart from two signs, a character folds to its small letter. -/
theorem foldCase_cases {P : Char → Char → Prop} (hlower : ∀ c : Char, P c c.toLower) (hs : P longS 's')
    (hk : P kelvinSign 'k') (c : Char) : P c (foldCase c) := by
  by_cases h1 : c = longS
  · rw [h1]
    exact hs
  by_cases h2 : c = kelvinSign
  · rw [h2]
    exact hk
  rw [foldCase_eq_toLower h1 h2]
  exact hlower c

theorem foldCase_toLower (c : Char) : foldCase c.toLower = foldCase c :=
  toLower_cases (P := fun c d => foldCase d = foldCase c) (by decide) (fun _ _ => rfl) c

/-! ## Padding -/

/-- The code points of the characters that are padding. -/
def paddingCodes : List Nat :=
  [0x09, 0x0A, 0x0B, 0x0C, 0x0D, 0x20, 0x85, 0xA0, 0x1680, 0x2000, 0x2001, 0x2002, 0x2003, 0x2004,
   0x2005, 0x2006, 0x2007, 0x2008, 0x2009, 0x200A, 0x2028, 0x2029, 0x202F, 0x205F, 0x3000, 0xFEFF]

theorem mem_paddingCodes {c : Char} (h : isPadding c = true) : c.toNat ∈ paddingCodes := by
  rw [isPadding, isBlank, Bool.or_eq_true] at h
  simp only [Bool.or_eq_true, Bool.and_eq_true, decide_eq_true_eq, beq_iff_eq] at h
  simp only [paddingCodes, List.mem_cons, List.not_mem_nil, or_false]
  rcases h with h | rfl
  · omega
  · decide

theorem forall_isPadding {P : Char → Prop} (h : ∀ n ∈ paddingCodes, P (Char.ofNat n)) {c : Char}
    (hc : isPadding c = true) : P c := by
  have h' := h c.toNat (mem_paddingCodes hc)
  rwa [Char.ofNat_toNat] at h'

theorem isPadding_iff {c : Char} : isPadding c = true ↔ c.toNat ∈ paddingCodes := by
  refine ⟨mem_paddingCodes, fun h => ?_⟩
  have hall : ∀ n ∈ paddingCodes, isPadding (Char.ofNat n) = true := by decide
  rw [← Char.ofNat_toNat c]
  exact hall _ h

theorem isAsciiWord_of_isPadding {c : Char} (h : isPadding c = true) : isAsciiWord c = false :=
  forall_isPadding (P := fun c => isAsciiWord c = false) (by decide) h

theorem isPadding_of_isBlank {c : Char} (h : isBlank c = true) : isPadding c = true := by
  rw [isPadding, h, Bool.true_or]

theorem isPadding_of_isAsciiWord {c : Char} (h : isAsciiWord c = true) : isPadding c = false := by
  rw [← Bool.not_eq_true]
  intro hp
  rw [isAsciiWord_of_isPadding hp] at h
  cases h

/-- **Case folding keeps padding and makes none.** -/
theorem isPadding_foldCase (c : Char) : isPadding (foldCase c) = isPadding c := by
  have hlower : ∀ c : Char, isPadding c.toLower = isPadding c :=
    toLower_cases (P := fun c d => isPadding d = isPadding c) (by decide) fun _ _ => rfl
  exact foldCase_cases (P := fun c d => isPadding d = isPadding c) hlower (by decide) (by decide) c

theorem isPadding_eq_of_isVariant {c d : Char} (h : isVariant c d = true) :
    isPadding d = isPadding c := by
  rw [isVariant, beq_iff_eq] at h
  rw [← isPadding_foldCase d, ← h, isPadding_foldCase]

/-! ## The front of a text -/

section

variable {p : Char → Bool} {v w : Text}

/-- **Characters of one kind in front of another character**, or of the end of the text. -/
theorem span_append (hv : ∀ c ∈ v, p c = true) (hw : ∀ c ∈ w.head?, p c = false) :
    (v ++ w).takeWhile p = v ∧ (v ++ w).dropWhile p = w := by
  have hstop : w.takeWhile p = [] ∧ w.dropWhile p = w := by
    cases w with
    | nil => exact ⟨rfl, rfl⟩
    | cons c w => simp [hw c rfl]
  rw [List.takeWhile_append_of_pos hv, List.dropWhile_append_of_pos hv, hstop.1, hstop.2, List.append_nil]
  exact ⟨rfl, rfl⟩

theorem head?_dropWhile : ∀ c ∈ (w.dropWhile p).head?, p c = false := by
  intro c hc
  have hstop := List.head?_dropWhile_not p w
  rwa [Option.mem_def.mp hc] at hstop

end

/-! ## Word characters of every script -/

theorem isWord_of_isAsciiWord {c : Char} (h : isAsciiWord c = true) : isWord c = true := by
  by_cases hc : c.toNat < 0x80
  · rw [isWord_of_ascii hc, h]
  · rw [isAsciiWord_of_le (by omega)] at h
    cases h

/-- **Case folding keeps word characters and makes none.** -/
theorem isWord_foldCase (c : Char) : isWord (foldCase c) = isWord c := by
  have hlower : ∀ c : Char, isWord c.toLower = isWord c :=
    toLower_cases (P := fun c d => isWord d = isWord c) (by decide) fun _ _ => rfl
  exact foldCase_cases (P := fun c d => isWord d = isWord c) hlower (by decide +kernel) (by decide +kernel) c

theorem isWord_of_isPadding {c : Char} (h : isPadding c = true) : isWord c = false :=
  forall_isPadding (P := fun c => isWord c = false) (by decide +kernel) h

end CommandVetting
