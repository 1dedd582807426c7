import CommandVetting.Proofs.Pattern.Parts
import CommandVetting.Proofs.Text.Lines

/-!
# Spans within a line

A pattern none of whose classes has the line feed derives no span that goes beyond a line. If it is
local as well, it sees no difference between the ends of a line and the ends of the text.

* `Pattern.inLine`, **`Derives.newline_notMem`: spans without a line feed**;
* `Text.endsInWord_of_newline`, `Text.startsInWord_of_newline`: words do not grow over a line feed;
* **`Pattern.occursIn_iff_exists_line`**: a pattern of this kind occurs in a text exactly when it
  occurs in a line of it.
-/

namespace CommandVetting

variable {p : Pattern} {t u v w : Text}

/-- No class of the pattern has the line feed. -/
def Pattern.inLine : Pattern → Bool
  | one k => !k.contains '\n'
  | seq p q | alt p q => p.inLine && q.inLine
  | star p => p.inLine
  | empty | boundary | start | stop => true

theorem Pattern.inLine_eq_lacks (p : Pattern) : p.inLine = p.lacks '\n' := by
  induction p with
  | one k => simp [inLine, lacks, classes]
  | seq p q ihp ihq | alt p q ihp ihq => rw [inLine, ihp, ihq, lacks, lacks, lacks, classes, List.all_append]
  | star p ih => exact ih
  | empty | boundary | start | stop => rfl

theorem Derives.newline_notMem (h : Derives p u v w) (hp : p.inLine = true) : '\n' ∉ v :=
  h.notMem_of_lacks (p.inLine_eq_lacks ▸ hp)

/-! ## The ends of a line -/

theorem Text.endsInWord_of_newline (h : ∀ c ∈ u.getLast?, c = '\n') : u.endsInWord = false :=
  endsInWord_eq_false fun c hc => by rw [h c hc]; decide

theorem Text.startsInWord_of_newline (h : ∀ c ∈ w.head?, c = '\n') : w.startsInWord = false :=
  startsInWord_eq_false fun c hc => by rw [h c hc]; decide

theorem Pattern.OccursIn.exists_line (h : p.OccursIn t) (hlocal : p.isLocal = true)
    (hp : p.inLine = true) : ∃ l ∈ t.splitOn '\n', p.OccursIn l := by
  obtain ⟨u, v, w, rfl, hd⟩ := h
  obtain ⟨a, u', rfl, hu, ha⟩ := exists_append_notMem '\n' u
  obtain ⟨w', b, rfl, hw, hb⟩ := exists_notMem_append '\n' w
  have hv : '\n' ∉ v := hd.newline_notMem hp
  have hline : '\n' ∉ u' ++ v ++ w' := by simp [hu, hv, hw]
  refine ⟨u' ++ v ++ w', mem_splitOn_iff.mpr ⟨hline, a, b, by simp, ha, hb⟩, u', v, w', rfl, ?_⟩
  rw [isLocal, Bool.and_eq_true] at hlocal
  exact hd.of_alike hlocal.2 (.inl hlocal.1)
    (Text.endsInWord_append_left (Text.endsInWord_of_newline ha))
    (Text.startsInWord_append_right (Text.startsInWord_of_newline hb))

theorem Pattern.occursIn_of_line (hlocal : p.isLocal = true) {l : Text} (hl : l ∈ t.splitOn '\n')
    (h : p.OccursIn l) : p.OccursIn t := by
  obtain ⟨-, a, b, rfl, ha, hb⟩ := mem_splitOn_iff.mp hl
  rw [occursIn_iff_occursBefore] at h ⊢
  exact h.embed hlocal (Text.endsInWord_of_newline ha) (Text.startsInWord_of_newline hb)
    fun _ _ => trivial

/-- **A local pattern without a line feed occurs in a text exactly when it occurs in a line.** -/
theorem Pattern.occursIn_iff_exists_line (hlocal : p.isLocal = true) (hp : p.inLine = true) :
    p.OccursIn t ↔ ∃ l ∈ t.splitOn '\n', p.OccursIn l :=
  ⟨fun h => h.exists_line hlocal hp, fun ⟨_, hl, h⟩ => occursIn_of_line hlocal hl h⟩

end CommandVetting
