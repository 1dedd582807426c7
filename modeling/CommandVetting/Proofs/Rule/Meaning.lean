import CommandVetting.Rule.Table
import CommandVetting.Pattern.Lemmas
import CommandVetting.Proofs.Pattern.Reading

/-!
# What a rule says

A rule is known by its pattern text. The text has one reading, and the reading tells which spans of a
command the rule forbids.

* `Rule.Describes r t`: the pattern text of `r`, as the grammar reads it, describes a span of `t`;
* **`Rule.forbids_iff_describes`**: the search decides this;
* `Pattern.occursIn_iff_positions`: a span lies between two positions;
* **`Rule.exists_reading`**: the one reading of a rule, and the commands that it forbids.
-/

namespace CommandVetting

/-- A span lies between two positions of its text. -/
theorem Pattern.occursIn_iff_positions {p : Pattern} {t : Text} : p.OccursIn t ↔
    ∃ i j, i ≤ j ∧ j ≤ t.length ∧ Derives p (t.take i) ((t.take j).drop i) (t.drop j) := by
  constructor
  · rintro ⟨u, v, w, rfl, h⟩
    refine ⟨u.length, u.length + v.length, by omega, by simp, ?_⟩
    have ht : (u ++ v ++ w).take (u.length + v.length) = u ++ v :=
      List.take_left' (List.length_append)
    have hd : (u ++ v ++ w).drop (u.length + v.length) = w :=
      List.drop_left' (List.length_append)
    rw [ht, hd, List.drop_left, List.append_assoc, List.take_left]
    exact h
  · rintro ⟨i, j, hij, -, h⟩
    refine ⟨_, _, _, ?_, h⟩
    have hi : t.take i = (t.take j).take i := by rw [List.take_take, Nat.min_eq_left hij]
    rw [hi, List.take_append_drop, List.take_append_drop]

namespace Rule

/-- The pattern text of the rule describes a span of the text. -/
def Describes (r : Rule) (t : Text) : Prop := ∃ p, Spells r.text p ∧ p.OccursIn t

theorem spells (r : Rule) : Spells r.text r.pattern := parse?_eq_some_iff.mp r.parses

theorem forbids_iff_occursIn {r : Rule} {t : Text} :
    r.forbids t = true ↔ r.pattern.OccursIn t :=
  r.pattern.search_iff t

/-- **A rule forbids the texts that its pattern text describes.** -/
theorem forbids_iff_describes {r : Rule} {t : Text} : r.forbids t = true ↔ r.Describes t := by
  rw [forbids_iff_occursIn]
  constructor
  · exact fun h => ⟨r.pattern, r.spells, h⟩
  · rintro ⟨p, hp, h⟩
    rwa [r.spells.unique hp]

/-- **The pattern text of a rule has exactly one reading**, and the rule forbids a command exactly when
the reading derives the span between two positions of the command. -/
theorem exists_reading (r : Rule) : ∃ p, (∀ q, Spells r.text q ↔ q = p) ∧
    ∀ s : Text, r.forbids s = true ↔
      ∃ i j, i ≤ j ∧ j ≤ s.length ∧ Derives p (s.take i) ((s.take j).drop i) (s.drop j) := by
  refine ⟨r.pattern, fun q => ⟨fun h => h.unique r.spells, ?_⟩, fun s => ?_⟩
  · rintro rfl
    exact r.spells
  · rw [forbids_iff_occursIn, Pattern.occursIn_iff_positions]

end Rule

end CommandVetting
