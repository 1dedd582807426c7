import CommandVetting.Proofs.Pattern.Strides
import CommandVetting.Proofs.Rule.Meaning
import CommandVetting.Rule.Table

/-!
# Rules about spaced words

Eight rules look for words with white space between them, or for a name of any script. What may follow such
a run is never a part of it, so that each of these rules can be followed by a scan that never goes back.

* `Stride.word`, `Stride.blanks`: a word letter by letter, and white space;
* `Rule.strides`: the strides of the eight rules;
* **`forbids_iff_scan?`**: each of them forbids a text if its scan succeeds at some place.
-/

namespace CommandVetting

namespace Stride

/-- The letters of a word, up to case. -/
def word (t : Text) : List Stride := t.map fun c => .one (.literal c)

/-- White space, as far as it goes. -/
def blanks : Stride := .run .blank

end Stride

namespace Rule

open Stride (word blanks)

/-- The rules about spaced words, and the strides by which they can be followed. -/
def strides : List (Rule × List Stride) :=
  [(rmRfRoot,
    .flatten [[.boundary], word "rm", [blanks], word "-rf", [blanks], word "/", [.blankOrEnd]]),
   (rmRfRootGlob, .flatten [[.boundary], word "rm", [blanks], word "-rf", [blanks], word "/*"]),
   (formatDrive, .flatten [[.boundary], word "format", [blanks, .anyRun .word], word ":"]),
   (initRunlevel,
    .flatten [[.boundary], word "init", [blanks, .one (.anyOf ['0', '6']), .boundary]]),
   (wevtutilClear, .flatten [[.boundary], word "wevtutil", [blanks], word "cl", [.boundary]]),
   (histfileDevnull,
    .flatten [[.boundary], word "export", [blanks], word "HISTFILE", [.anyRun .blank], word "=",
      [.anyRun .blank], word "/dev/null", [.boundary]]),
   (historyClear, .flatten [[.boundary], word "history", [blanks], word "-c", [.boundary]]),
   (ufwDisable, .flatten [[.boundary], word "ufw", [blanks], word "disable", [.boundary]])]

/-- **The strides say what the pattern says**, and none of their runs goes on in what comes behind it. -/
theorem pattern_eq_row {r : Rule} {ss : List Stride} (h : (r, ss) ∈ strides) :
    r.pattern = Stride.row ss ∧ Stride.isOneWay ss = true := by
  have hall : ∀ x ∈ strides, x.1.pattern = Stride.row x.2 ∧ Stride.isOneWay x.2 = true := by
    decide +kernel
  exact hall _ h

end Rule

/-- **The rules about spaced words need no way back.** Each of them forbids a text exactly when from some
place of it a single scan succeeds, which takes white space and names as far as they go and gives nothing
of them back. -/
theorem forbids_iff_scan? {r : Rule} {ss : List Stride} (h : (r, ss) ∈ Rule.strides) (s : Text) :
    r.forbids s = true ↔ ∃ u w, s = u ++ w ∧ (Stride.scan? ss (.between u w)).isSome = true := by
  obtain ⟨hp, hone⟩ := Rule.pattern_eq_row h
  rw [Rule.forbids_iff_occursIn, hp, Stride.occursIn_iff_scan? hone]

/-- A name of several scripts behind white space of several kinds. In the second text a hyphen stands between
the name and the colon, and no scan succeeds. -/
theorem forbids_iff_scan?_formatDrive :
    let s : Text := "reformat a: FORMAT\u3000\n\u1E9E\u017Fx9_\u0301:"
    let t : Text := "reformat a: FORMAT\u3000\n\u1E9E\u017Fx9_\u0301-:"
    ∃ ss, (Rule.formatDrive, ss) ∈ Rule.strides ∧
      (∃ u w, s = u ++ w ∧ (Stride.scan? ss (.between u w)).isSome = true) ∧
      ¬ ∃ u w, t = u ++ w ∧ (Stride.scan? ss (.between u w)).isSome = true := by
  intro s t
  have hmem : (Rule.formatDrive, _) ∈ Rule.strides := .tail _ (.tail _ (.head _))
  have hallowed : Rule.formatDrive.forbids t ≠ true := by decide +kernel
  exact ⟨_, hmem, (forbids_iff_scan? hmem s).mp (by decide +kernel),
    fun h => hallowed ((forbids_iff_scan? hmem t).mpr h)⟩

end CommandVetting
