import Mathlib.Tactic.Common
import CommandVetting.Json.Reader
import CommandVetting.Text.Number

/-!
# The grammar of JSON

Which text stands for which value, told without a reader. Only texts that stand for a value are
described: a string literal with a half of a character in it is well formed, but stands for no text.

* `SpellsChar`, `SpellsText`: the inside of a string literal, where **every character can be spelled
  in several ways**;
* `IsNumeral`: numbers, which are kept as they are written;
* `SpellsValue`, `SpellsItems`, `SpellsMembers`: values and what stands between their brackets;
* **`Spells t j`**: the text `t` is the value `j`, with blanks around it or without.
-/

namespace CommandVetting.Json

/-! ## Strings -/

/-- The letters behind a backslash, and what they stand for. -/
def shortEscapes : List (Char × Char) :=
  [('"', '"'), ('\\', '\\'), ('/', '/'), ('b', '\x08'), ('f', '\x0C'), ('n', '\n'), ('r', '\r'),
   ('t', '\t')]

/-- The character is the hexadecimal digit of a value, a small letter or a capital. -/
def IsHexDigit (c : Char) (n : Nat) : Prop := n < 0x10 ∧ c.toLower = Nat.digitChar n

/-- Four hexadecimal digits and their value. -/
inductive SpellsUnit : Text → Nat → Prop where
  | digits {a b c d : Char} {k l m n : Nat} (ha : IsHexDigit a k) (hb : IsHexDigit b l)
    (hc : IsHexDigit c m) (hd : IsHexDigit d n) :
    SpellsUnit [a, b, c, d] (((k * 0x10 + l) * 0x10 + m) * 0x10 + n)

/-- **A text spells a character of a string.** A character past the first plane has no unit of its
own and is spelled by two halves. -/
inductive SpellsChar : Text → Char → Prop where
  | plain {c : Char} (h : 0x20 ≤ c.toNat) (hq : c ≠ '"') (hb : c ≠ '\\') : SpellsChar [c] c
  | short {e c : Char} (h : (e, c) ∈ shortEscapes) : SpellsChar ['\\', e] c
  | unit {u : Text} {c : Char} (h : SpellsUnit u c.toNat) : SpellsChar ('\\' :: 'u' :: u) c
  | halves {u v : Text} {c : Char} {n : Nat} (hc : c.toNat = 0x10000 + n)
    (hu : SpellsUnit u (0xD800 + n / 0x400)) (hv : SpellsUnit v (0xDC00 + n % 0x400)) :
    SpellsChar ('\\' :: 'u' :: (u ++ '\\' :: 'u' :: v)) c

/-- A text spells a string, without the marks around it. -/
inductive SpellsText : Text → Text → Prop where
  | nil : SpellsText [] []
  | cons {t u : Text} {c : Char} {s : Text} (h : SpellsChar t c) (rest : SpellsText u s) :
    SpellsText (t ++ u) (c :: s)

/-! ## Numbers -/

/-- The digits before the point: a zero stands alone. -/
inductive IsWhole : Text → Prop where
  | zero : IsWhole ['0']
  | digits {ds : Text} (h : ds.isDigits = true) (h0 : ds.head? ≠ some '0') : IsWhole ds

inductive IsFraction : Text → Prop where
  | none : IsFraction []
  | point {ds : Text} (h : ds.isDigits = true) : IsFraction ('.' :: ds)

inductive IsExponent : Text → Prop where
  | none : IsExponent []
  | mark {e : Char} {sign ds : Text} (he : e = 'e' ∨ e = 'E')
    (hs : sign = [] ∨ sign = ['+'] ∨ sign = ['-']) (h : ds.isDigits = true) :
    IsExponent (e :: (sign ++ ds))

inductive IsNumeral : Text → Prop where
  | parts {sign whole fraction exponent : Text} (hs : sign = [] ∨ sign = ['-']) (hw : IsWhole whole)
    (hf : IsFraction fraction) (he : IsExponent exponent) :
    IsNumeral (sign ++ (whole ++ fraction ++ exponent))

/-! ## Values -/

/-- Blanks between two tokens. -/
def IsGap (g : Text) : Prop := ∀ c ∈ g, isGap c = true

mutual

/-- **A text spells a value**, without a blank around it. -/
inductive SpellsValue : Text → Json → Prop where
  | nullWord : SpellsValue ['n', 'u', 'l', 'l'] null
  | trueWord : SpellsValue ['t', 'r', 'u', 'e'] (bool true)
  | falseWord : SpellsValue ['f', 'a', 'l', 's', 'e'] (bool false)
  | num {t : Text} (h : IsNumeral t) : SpellsValue t (num t)
  | str {t s : Text} (h : SpellsText t s) : SpellsValue ('"' :: (t ++ ['"'])) (str s)
  | emptyArr {g : Text} (hg : IsGap g) : SpellsValue ('[' :: (g ++ [']'])) (arr [])
  | arr {t : Text} {js : List Json} (h : SpellsItems t js) :
    SpellsValue ('[' :: (t ++ [']'])) (arr js)
  | emptyObj {g : Text} (hg : IsGap g) : SpellsValue ('\x7b' :: (g ++ ['\x7d'])) (obj [])
  | obj {t : Text} {ms : List (Text × Json)} (h : SpellsMembers t ms) :
    SpellsValue ('\x7b' :: (t ++ ['\x7d'])) (obj ms)

/-- **A text spells a value**, with blanks around it or without. -/
inductive Spells : Text → Json → Prop where
  | value {g t g' : Text} {j : Json} (hg : IsGap g) (h : SpellsValue t j) (hg' : IsGap g') :
    Spells (g ++ (t ++ g')) j

/-- The items of an array, one at least, with commas between them. -/
inductive SpellsItems : Text → List Json → Prop where
  | last {t : Text} {j : Json} (h : Spells t j) : SpellsItems t [j]
  | more {t u : Text} {j : Json} {js : List Json} (h : Spells t j) (rest : SpellsItems u js) :
    SpellsItems (t ++ ',' :: u) (j :: js)

/-- A name and a value with a colon between them. -/
inductive SpellsMember : Text → Text × Json → Prop where
  | member {g t k g' u : Text} {j : Json} (hg : IsGap g) (hk : SpellsText t k) (hg' : IsGap g')
    (h : Spells u j) : SpellsMember (g ++ '"' :: (t ++ '"' :: (g' ++ ':' :: u))) (k, j)

/-- The members of an object, one at least, with commas between them. -/
inductive SpellsMembers : Text → List (Text × Json) → Prop where
  | last {t : Text} {m : Text × Json} (h : SpellsMember t m) : SpellsMembers t [m]
  | more {t u : Text} {m : Text × Json} {ms : List (Text × Json)} (h : SpellsMember t m)
    (rest : SpellsMembers u ms) : SpellsMembers (t ++ ',' :: u) (m :: ms)

end

theorem isGap_nil : IsGap [] := by simp [IsGap]

theorem SpellsValue.spells {t : Text} {j : Json} (h : SpellsValue t j) : Spells t j := by
  simpa using Spells.value isGap_nil h isGap_nil

/-! ## How values start -/

/-- The digits of a numeral start with a digit. -/
theorem IsWhole.exists_cons {w : Text} : IsWhole w → ∃ c u, w = c :: u ∧ c.isDigit = true
  | .zero => ⟨'0', [], rfl, rfl⟩
  | .digits h _ => by
    cases w with
    | nil => cases h
    | cons c u =>
      simp only [Text.isDigits, List.all_cons, Bool.and_eq_true] at h
      exact ⟨c, u, rfl, h.2.1⟩

theorem IsNumeral.exists_cons {t : Text} (h : IsNumeral t) :
    ∃ c u, t = c :: u ∧ (c = '-' ∨ c.isDigit = true) := by
  obtain @⟨sign, whole, f, e, hs, hw, -, -⟩ := h
  obtain ⟨c, u, rfl, hc⟩ := hw.exists_cons
  rcases hs with rfl | rfl
  · exact ⟨c, u ++ f ++ e, by simp, .inr hc⟩
  · exact ⟨'-', _, rfl, .inl rfl⟩

/-- The characters that values start with. -/
def isStart (c : Char) : Bool :=
  c == 'n' || c == 't' || c == 'f' || c == '"' || c == '[' || c == '\x7b' || c == '-' || c.isDigit

theorem SpellsValue.exists_cons {t : Text} {j : Json} :
    SpellsValue t j → ∃ c u, t = c :: u ∧ isStart c = true
  | .nullWord | .trueWord | .falseWord | .str _ | .emptyArr _ | .arr _ | .emptyObj _ | .obj _ =>
    ⟨_, _, rfl, rfl⟩
  | .num h => by
    obtain ⟨c, u, rfl, hc⟩ := h.exists_cons
    exact ⟨c, u, rfl, by rcases hc with rfl | hc <;> simp [isStart, *]⟩

end CommandVetting.Json
