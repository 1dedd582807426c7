import Mathlib.Data.List.Nodup
import Mathlib.Tactic.Common
import CommandVetting.Proofs.Rule.Meaning

/-!
# The order of the rules

The names of the rules are distinct, so that a name tells which rule is meant, and each rule has one
place in the table.

* `Rule.eq_of_name_eq`, `Rule.index_unique`: a rule is known by its name and has one place;
* `Rule.AtOrBefore`: the order of the table;
* `Rule.first?`: the first rule that forbids a text; **`Rule.first?_eq_some_iff`**,
  `Rule.first?_eq_none_iff`: which rule this is, told by what the pattern texts describe;
* `Rule.exists_first?_of_forbids`: any rule that forbids the text bounds the place of the first one.
-/

namespace CommandVetting.Rule

/-! ## Names and places -/

theorem names_nodup : (table.map name).Nodup := by decide

/-- **A rule of the table is known by its name.** -/
theorem eq_of_name_eq {r r' : Rule} (hr : r ∈ table) (hr' : r' ∈ table) (h : r.name = r'.name) :
    r = r' :=
  List.inj_on_of_nodup_map names_nodup hr hr' h

theorem index_unique {r : Rule} {i j : Nat} (hi : table[i]? = some r) (hj : table[j]? = some r) :
    i = j := by
  obtain ⟨hlt, -⟩ := List.getElem?_eq_some_iff.mp hi
  exact (List.getElem?_inj hlt (names_nodup.of_map name)).mp (hi.trans hj.symm)

/-- The rule stands at the place of another rule of the table or before it. -/
def AtOrBefore (r' r : Rule) : Prop :=
  ∃ i j : Nat, i ≤ j ∧ table[i]? = some r' ∧ table[j]? = some r

/-! ## The first rule -/

/-- The first rule that forbids a text. -/
def first? (t : Text) : Option Rule := table.find? (·.forbids t)

theorem mem_of_first? {t : Text} {r : Rule} (h : first? t = some r) : r ∈ table :=
  List.mem_of_find?_eq_some h

theorem forbids_of_first? {t : Text} {r : Rule} (h : first? t = some r) : r.forbids t = true :=
  (List.find?_eq_some_iff_append.mp h).1

/-- **The first rule that forbids a text** describes it, and no rule before it does. -/
theorem first?_eq_some_iff {t : Text} {r : Rule} : first? t = some r ↔
    ∃ i : Nat, table[i]? = some r ∧ r.Describes t ∧
      ∀ (j : Nat) (r' : Rule), j < i → table[j]? = some r' → ¬ r'.Describes t := by
  rw [first?, List.find?_eq_some_iff_getElem]
  constructor
  · rintro ⟨h, i, hi, rfl, hmin⟩
    refine ⟨i, List.getElem?_eq_getElem hi, forbids_iff_describes.mp h, fun j r' hj hr' hd => ?_⟩
    obtain ⟨hlt, rfl⟩ := List.getElem?_eq_some_iff.mp hr'
    have hf := hmin j hj
    rw [forbids_iff_describes.mpr hd] at hf
    cases hf
  · rintro ⟨i, hi, h, hmin⟩
    obtain ⟨hlt, rfl⟩ := List.getElem?_eq_some_iff.mp hi
    refine ⟨forbids_iff_describes.mpr h, i, hlt, rfl, fun j hj => ?_⟩
    rw [Bool.not_eq_true', Bool.eq_false_iff]
    intro hf
    exact hmin j _ hj (List.getElem?_eq_getElem _) (forbids_iff_describes.mp hf)

theorem first?_eq_none_iff {t : Text} : first? t = none ↔ ∀ r ∈ table, ¬ r.Describes t := by
  rw [first?, List.find?_eq_none]
  exact forall₂_congr fun r _ => not_congr forbids_iff_describes

/-- A rule that forbids a text has a first one at its place or before it. -/
theorem exists_first?_of_forbids {t : Text} {r : Rule} (hr : r ∈ table) (h : r.forbids t = true) :
    ∃ r', first? t = some r' ∧ r'.AtOrBefore r := by
  cases hf : first? t with
  | none => exact absurd (forbids_iff_describes.mp h) (first?_eq_none_iff.mp hf r hr)
  | some r' =>
    obtain ⟨i, hi, -, hmin⟩ := first?_eq_some_iff.mp hf
    obtain ⟨j, hj⟩ := List.mem_iff_getElem?.mp hr
    refine ⟨r', rfl, i, j, ?_, hi, hj⟩
    by_contra hlt
    exact hmin j r (Nat.lt_of_not_le hlt) hj (forbids_iff_describes.mp h)

end CommandVetting.Rule
