import CommandVetting.Pattern.Parser
import CommandVetting.Pattern.Boundary

/-!
# The grammar of pattern text

Which text stands for which tree, told without a reader. An item is a character, a class, an
assertion, a group or a repeated item; a row is a number of items; a pattern text is a number of
rows with bars between them.

* `metacharacters`, `IsPunctuation`, `listSigns`: which characters can stand for themselves, and
  where;
* `SpellsItem`, `SpellsRow`: the parts of a pattern text;
* **`Spells t p`**: the text `t` spells the pattern `p`;
* `Spells.head?_ne`: no pattern text starts with a question mark, so that the parenthesis of a group
  is not mistaken for the start of a special group.
-/

namespace CommandVetting

/-- The characters that stand for themselves only after a backslash. -/
def metacharacters : List Char :=
  ['.', '^', '$', '*', '+', '?', '|', '(', ')', '[', ']', '{', '}', '\\']

/-- The characters that a bracketed list cannot hold. -/
def listSigns : List Char := ['[', ']', '\\', '^', '-', '&', '~']

/-- Printable ASCII characters other than letters and digits. -/
def IsPunctuation (c : Char) : Prop :=
  0x21 ≤ c.toNat ∧ c.toNat ≤ 0x7E ∧ c.isAlphanum = false

mutual

/-- **A text spells one item.** -/
inductive SpellsItem : Text → Pattern → Prop where
  | literal {c : Char} (h : c ∉ metacharacters) : SpellsItem [c] (.one (.literal c))
  | escaped {c : Char} (h : IsPunctuation c) : SpellsItem ['\\', c] (.one (.literal c))
  | blank : SpellsItem ['\\', 's'] (.one .blank)
  | word : SpellsItem ['\\', 'w'] (.one .word)
  | anyInLine : SpellsItem ['.'] (.one .anyInLine)
  | anyOf {c : Char} {cs : List Char} (h : ∀ d ∈ c :: cs, d ∉ listSigns) :
    SpellsItem ('[' :: (c :: cs ++ [']'])) (.one (.anyOf (c :: cs)))
  | boundary : SpellsItem asciiBoundary .boundary
  | start : SpellsItem ['^'] .start
  | stop : SpellsItem ['$'] .stop
  | group {t : Text} {p : Pattern} (h : Spells t p) : SpellsItem ('(' :: (t ++ [')'])) p
  | silentGroup {t : Text} {p : Pattern} (h : Spells t p) :
    SpellsItem ('(' :: '?' :: ':' :: (t ++ [')'])) p
  | star {t : Text} {p : Pattern} (h : SpellsItem t p) : SpellsItem (t ++ ['*']) p.star
  | plus {t : Text} {p : Pattern} (h : SpellsItem t p) : SpellsItem (t ++ ['+']) p.plus
  | optional {t : Text} {p : Pattern} (h : SpellsItem t p) : SpellsItem (t ++ ['?']) p.optional

/-- A text spells items, one after the other. -/
inductive SpellsRow : Text → List Pattern → Prop where
  | nil : SpellsRow [] []
  | snoc {t t' : Text} {ps : List Pattern} {p : Pattern} (init : SpellsRow t ps)
    (last : SpellsItem t' p) : SpellsRow (t ++ t') (ps ++ [p])

/-- **A text spells a pattern**: rows of items with bars between them. -/
inductive Spells : Text → Pattern → Prop where
  | row {t : Text} {ps : List Pattern} (h : SpellsRow t ps) : Spells t (.ofSeq ps)
  | bar {t t' : Text} {p : Pattern} {ps : List Pattern} (init : Spells t p)
    (last : SpellsRow t' ps) : Spells (t ++ '|' :: t') (p.alt (.ofSeq ps))

end

/-! ## How pattern texts start -/

theorem head?_append_ne {t t' : Text} {a : Char} (h : t.head? ≠ some a) (h' : t'.head? ≠ some a) :
    (t ++ t').head? ≠ some a := by
  cases t with
  | nil => exact h'
  | cons c t => exact h

/-- **An item starts with a character of its own**, and not with a question mark. -/
theorem SpellsItem.exists_cons {t : Text} {p : Pattern} :
    SpellsItem t p → ∃ c r, t = c :: r ∧ c ≠ '?'
  | .literal (c := c) h => ⟨c, [], rfl, by rintro rfl; exact h (by decide)⟩
  | .escaped _ => ⟨_, _, rfl, by decide⟩
  | .blank => ⟨_, _, rfl, by decide⟩
  | .word => ⟨_, _, rfl, by decide⟩
  | .anyInLine => ⟨_, _, rfl, by decide⟩
  | .anyOf _ => ⟨_, _, rfl, by decide⟩
  | .boundary => ⟨_, _, rfl, by decide⟩
  | .start => ⟨_, _, rfl, by decide⟩
  | .stop => ⟨_, _, rfl, by decide⟩
  | .group _ => ⟨_, _, rfl, by decide⟩
  | .silentGroup _ => ⟨_, _, rfl, by decide⟩
  | .star h => by
    obtain ⟨c, r, rfl, hc⟩ := h.exists_cons
    exact ⟨c, r ++ ['*'], rfl, hc⟩
  | .plus h => by
    obtain ⟨c, r, rfl, hc⟩ := h.exists_cons
    exact ⟨c, r ++ ['+'], rfl, hc⟩
  | .optional h => by
    obtain ⟨c, r, rfl, hc⟩ := h.exists_cons
    exact ⟨c, r ++ ['?'], rfl, hc⟩

theorem SpellsRow.head?_ne {t : Text} {ps : List Pattern} : SpellsRow t ps → t.head? ≠ some '?'
  | .nil => by simp
  | .snoc init last => by
    obtain ⟨c, r, rfl, hc⟩ := last.exists_cons
    exact head?_append_ne init.head?_ne (by simpa using hc)

theorem Spells.head?_ne {t : Text} {p : Pattern} : Spells t p → t.head? ≠ some '?'
  | .row h => h.head?_ne
  | .bar h _ => head?_append_ne h.head?_ne (by simp)

/-- A row that is not empty ends in a text that spells its last item. -/
theorem SpellsRow.exists_last {t : Text} {ps : List Pattern} {p : Pattern}
    (h : SpellsRow t (ps ++ [p])) :
    ∃ t' x, t = t' ++ x ∧ SpellsRow t' ps ∧ SpellsItem x p := by
  generalize hq : ps ++ [p] = qs at h
  cases h with
  | nil => simp at hq
  | snoc init last =>
    obtain ⟨rfl, rfl⟩ := List.append_singleton_inj.mp hq
    exact ⟨_, _, rfl, init, last⟩

end CommandVetting
