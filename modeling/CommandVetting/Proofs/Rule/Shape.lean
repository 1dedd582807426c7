import CommandVetting.Proofs.Pattern.Ends
import CommandVetting.Proofs.Pattern.Spans
import CommandVetting.Proofs.Rule.Meaning

/-!
# Rules and the text around a command

Only the rule against removing the root directory asks what follows its span: white space or the end
of the text. All other rules are solid and local, so that neither padding nor other words around a
command matter to them.

* `Rule.rmRfRootStem`, `Rule.rmRfRoot_forbids_iff`: the rule that looks at what follows;
* `Rule.isLocal_isSolid_of_mem`: the other rules; `Rule.forbids_nil`: no rule forbids the empty text;
* **`Rule.forbids_embed`**: what a rule forbids stays forbidden inside a larger text;
* **`Rule.forbids_cut`**: what a rule forbids stays forbidden without the padding around it.
-/

namespace CommandVetting

namespace Rule

/-! ## The rule that looks at what follows -/

/-- The patterns of `\brm\s+-rf\s+/`, which stand before the end of the rule. -/
def rmRfRootStem : List Pattern :=
  [.boundary, .one (.literal 'r'), .one (.literal 'm'), .plus (.one .blank), .one (.literal '-'),
   .one (.literal 'r'), .one (.literal 'f'), .plus (.one .blank), .one (.literal '/')]

theorem rmRfRoot_pattern :
    rmRfRoot.pattern = .ofSeq (rmRfRootStem ++ [.alt (.one .blank) .stop]) := by
  decide +kernel

/-- The text is empty or starts with white space. -/
def StartsBlank (w : Text) : Prop := ∀ c ∈ w.head?, isBlank c = true

theorem StartsBlank.append {w b : Text} (hw : StartsBlank w) (hb : StartsBlank b) :
    StartsBlank (w ++ b) := by
  cases w with
  | nil => exact hb
  | cons c w => exact hw

theorem StartsBlank.of_append {w b : Text} (h : StartsBlank (w ++ b)) : StartsBlank w := by
  cases w with
  | nil => exact fun c hc => by cases hc
  | cons c w => exact h

/-- A row occurs before white space or at the end of the text if a pattern behind it asks for this. -/
theorem occursIn_concat_end_iff {ps : List Pattern} {t : Text} :
    (Pattern.ofSeq (ps ++ [.alt (.one .blank) .stop])).OccursIn t ↔
      (Pattern.ofSeq ps).OccursBefore StartsBlank t := by
  constructor
  · rintro ⟨u, v, w, rfl, h⟩
    obtain ⟨v₁, v₂, rfl, h₁, h₂⟩ := derives_ofSeq_append.mp h
    refine ⟨u, v₁, v₂ ++ w, by simp, h₁, ?_⟩
    cases h₂ with
    | altLeft h =>
      cases h with
      | one hc =>
        intro d hd
        rw [List.singleton_append, List.head?_cons, Option.mem_def] at hd
        rwa [Option.some.inj hd] at hc
    | altRight h =>
      cases h
      exact fun c hc => by cases hc
  · rintro ⟨u, v, w, rfl, h, hw⟩
    cases w with
    | nil =>
      refine ⟨u, v ++ [], [], by simp, derives_ofSeq_append.mpr ⟨v, [], rfl, h, ?_⟩⟩
      exact .altRight .stop
    | cons c w =>
      refine ⟨u, v ++ [c], w, by simp, derives_ofSeq_append.mpr ⟨v, [c], rfl, h, ?_⟩⟩
      exact .altLeft (.one (hw c rfl))

/-- **The rule forbids what ends in its stem, before white space or at the end of the text.** -/
theorem rmRfRoot_forbids_iff {t : Text} :
    rmRfRoot.forbids t = true ↔ (Pattern.ofSeq rmRfRootStem).OccursBefore StartsBlank t := by
  rw [forbids_iff_occursIn, rmRfRoot_pattern, occursIn_concat_end_iff]

theorem isLocal_rmRfRootStem : (Pattern.ofSeq rmRfRootStem).isLocal = true := rfl

theorem isSolid_rmRfRootStem : (Pattern.ofSeq rmRfRootStem).isSolid = true := rfl

/-! ## The other rules -/

theorem mem_tail_of_ne {r : Rule} (hr : r ∈ table) (h : r ≠ rmRfRoot) : r ∈ table.tail := by
  rcases List.mem_cons.mp hr with hr | hr
  · exact absurd hr h
  · exact hr

/-- **Every other rule is local and solid.** -/
theorem isLocal_isSolid_of_mem {r : Rule} (hr : r ∈ table) (h : r ≠ rmRfRoot) :
    r.pattern.isLocal = true ∧ r.pattern.isSolid = true := by
  have hall : ∀ r ∈ table.tail, (r.pattern.isLocal && r.pattern.isSolid) = true := by
    decide +kernel
  exact Bool.and_eq_true_iff.mp (hall r (mem_tail_of_ne hr h))

/-! ## All rules -/

/-- **What a rule forbids stays forbidden inside a larger text**, if words do not grow together at
the seams. After the rule against removing the root directory, white space has to follow. -/
theorem forbids_embed {r : Rule} {s a b : Text} (hr : r ∈ table) (h : r.forbids s = true)
    (ha : a.endsInWord = false) (hb : b.startsInWord = false)
    (root : r = rmRfRoot → StartsBlank b) : r.forbids (a ++ s ++ b) = true := by
  by_cases hroot : r = rmRfRoot
  · subst hroot
    rw [rmRfRoot_forbids_iff] at h ⊢
    exact h.embed isLocal_rmRfRootStem ha hb fun w hw => hw.append (root rfl)
  · rw [forbids_iff_occursIn, Pattern.occursIn_iff_occursBefore] at h ⊢
    exact h.embed (isLocal_isSolid_of_mem hr hroot).1 ha hb fun _ _ => trivial

/-- **What a rule forbids stays forbidden without the padding around it.** -/
theorem forbids_cut {r : Rule} {s a b : Text} (hr : r ∈ table) (h : r.forbids (a ++ s ++ b) = true)
    (ha : ∀ c ∈ a, isPadding c = true) (hb : ∀ c ∈ b, isPadding c = true) : r.forbids s = true := by
  by_cases hroot : r = rmRfRoot
  · subst hroot
    rw [rmRfRoot_forbids_iff] at h ⊢
    exact h.cut isLocal_rmRfRootStem isSolid_rmRfRootStem ha hb fun w hw => hw.of_append
  · rw [forbids_iff_occursIn, Pattern.occursIn_iff_occursBefore] at h ⊢
    obtain ⟨hlocal, hsolid⟩ := isLocal_isSolid_of_mem hr hroot
    exact h.cut hlocal hsolid ha hb fun _ _ => trivial

theorem forbids_nil {r : Rule} (hr : r ∈ table) : r.forbids [] = false := by
  rw [Bool.eq_false_iff]
  intro h
  by_cases hroot : r = rmRfRoot
  · subst hroot
    exact (rmRfRoot_forbids_iff.mp h).ne_nil isSolid_rmRfRootStem rfl
  · rw [forbids_iff_occursIn, Pattern.occursIn_iff_occursBefore] at h
    exact h.ne_nil (isLocal_isSolid_of_mem hr hroot).2 rfl

end Rule

end CommandVetting
