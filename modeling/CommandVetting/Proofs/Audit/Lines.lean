import CommandVetting.Proofs.Audit.Surroundings
import CommandVetting.Proofs.Pattern.Lines

/-!
# Commands of several lines

A text of several lines can be judged as a whole or line by line. What a rule finds in a line it finds
in the text, since a line feed is white space and ends every word. The converse holds for the rules
whose patterns do not reach over a line feed.

* `Rule.withinLine`: these rules; `Rule.isLocal_inLine_of_withinLine`: what they have in common;
* `Rule.forbids_of_line`: what is forbidden in a line is forbidden in the text;
* `exists_denial_of_line`: a denied line leads to a denial of the text;
* **`forbids_lines_agree`**: how the judgement on a text and on its lines go together.
-/

namespace CommandVetting

namespace Rule

/-- The rules whose patterns have no line feed. The others ask for white space between words. -/
def withinLine : List Rule :=
  [mkfs, rawDiskWrite, diskpart, shutdown, reboot, clearEventlog, deleteEvtx, defenderDisable,
   schtasksCreate, regAdd, scCreate, systemctlEnable, mimikatz, rubeus, secretsdump, psexec, chisel,
   frp, sharphound]

theorem isLocal_inLine_of_withinLine {r : Rule} (hr : r ∈ withinLine) :
    r.pattern.isLocal = true ∧ r.pattern.inLine = true := by
  have hall : ∀ r ∈ withinLine, (r.pattern.isLocal && r.pattern.inLine) = true := by
    decide +kernel
  exact Bool.and_eq_true_iff.mp (hall r hr)

variable {r : Rule} {s l : Text}

/-- **These rules forbid a text exactly when they forbid a line of it.** -/
theorem forbids_iff_exists_line (hr : r ∈ withinLine) :
    r.forbids s = true ↔ ∃ l ∈ s.splitOn '\n', r.forbids l = true := by
  obtain ⟨hlocal, hline⟩ := isLocal_inLine_of_withinLine hr
  simp only [forbids_iff_occursIn]
  exact Pattern.occursIn_iff_exists_line hlocal hline

/-- What is forbidden in a line is forbidden in the text. -/
theorem forbids_of_line (hr : r ∈ table) (hl : l ∈ s.splitOn '\n') (h : r.forbids l = true) :
    r.forbids s = true := by
  obtain ⟨-, a, b, rfl, ha, hb⟩ := mem_splitOn_iff.mp hl
  have hblank : StartsBlank b := fun c hc => by rw [hb c hc]; decide
  exact forbids_embed hr h (Text.endsInWord_of_newline ha) (Text.startsInWord_of_newline hb)
    fun _ => hblank

end Rule

/-- **A denied line leads to a denial of the text**, by the same rule or one before it. A byte order
mark might have ended a line that goes on in the text. -/
theorem exists_denial_of_line {s l : Text} {r : Rule} (hs : byteOrderMark ∉ s) (hr : r ∈ Rule.table)
    (hl : l ∈ s.splitOn '\n') (h : audit l = r.denial) :
    ∃ r' : Rule, r'.AtOrBefore r ∧ audit s = r'.denial := by
  obtain ⟨-, hf⟩ := (audit_eq_denial_iff hr).mp h
  obtain ⟨a, b, e, -, hb, -, -⟩ := Text.trims_trim l
  have hblank : Rule.StartsBlank b := by
    intro c hc
    have hcl : c ∈ l := by
      rw [e]
      exact List.mem_append_right _ (List.mem_of_mem_head? hc)
    have hcs : c ≠ byteOrderMark := by
      rintro rfl
      obtain ⟨-, x, y, e', -⟩ := mem_splitOn_iff.mp hl
      exact hs (by rw [e']; simp [hcl])
    have hpad := hb c (List.mem_of_mem_head? hc)
    simpa [isPadding, hcs] using hpad
  have hline : r.forbids l = true :=
    Rule.forbids_of_forbids_trim hr e (fun _ => hblank) (Rule.forbids_of_first? hf)
  exact exists_denial_of_forbids hr (Rule.forbids_trim hr (Rule.forbids_of_line hr hl hline))

/-- A carriage return at the end of a line makes no difference to the audit. -/
theorem exists_piece_of_line {s l : Text} (h : l ∈ s.lines) :
    ∃ p ∈ s.splitOn '\n', audit p = audit l := by
  obtain ⟨p, hp, rfl | rfl⟩ := Text.exists_piece_of_mem_lines h
  · exact ⟨l, hp, rfl⟩
  · refine ⟨_, hp, audit_congr ?_⟩
    have hcr : ∀ c ∈ ['\r'], isPadding c = true := by simp [isPadding, isBlank]
    simpa using Text.trim_padding (p := []) (s := l) (by simp) hcr

/-- **Judging a text and judging its lines.** For the rules that stay within a line the two agree. All
rules find in a text what they find in a line of it; so a text without a byte order mark is denied when
one of its lines is, whether the carriage returns before the line feeds are kept or not, and the rule
that is reported stands at the place of the one for the line or before it. -/
theorem forbids_lines_agree (s : Text) :
    (∀ r ∈ Rule.withinLine, r.forbids s = true ↔ ∃ l ∈ s.splitOn '\n', r.forbids l = true) ∧
    (∀ r ∈ Rule.table, ∀ l ∈ s.splitOn '\n', r.forbids l = true → r.forbids s = true) ∧
    (byteOrderMark ∉ s → ∀ r ∈ Rule.table, ∀ l, l ∈ s.splitOn '\n' ∨ l ∈ s.lines →
      audit l = r.denial → ∃ r' : Rule, r'.AtOrBefore r ∧ audit s = r'.denial) := by
  refine ⟨fun r hr => Rule.forbids_iff_exists_line hr, fun r hr l hl => Rule.forbids_of_line hr hl,
    fun hs r hr l hl h => ?_⟩
  rcases hl with hl | hl
  · exact exists_denial_of_line hs hr hl h
  · obtain ⟨p, hp, he⟩ := exists_piece_of_line hl
    exact exists_denial_of_line hs hr hp (he.trans h)

/-- Three lines, of which the last one is forbidden. -/
theorem forbids_lines_agree_reboot :
    let s : Text := "format\r\nc:\r\nreboot\r\n"
    byteOrderMark ∉ s ∧ (∃ l ∈ s.splitOn '\n', Rule.reboot.forbids l = true) ∧
      ∃ r' : Rule, r'.AtOrBefore Rule.reboot ∧ audit s = r'.denial := by
  intro s
  have hs : byteOrderMark ∉ s := by decide
  have hl : ("reboot" : Text) ∈ s.lines := by decide +kernel
  have ha : audit "reboot" = Rule.reboot.denial := by decide +kernel
  obtain ⟨hlocal, -, hdenied⟩ := forbids_lines_agree s
  refine ⟨hs, (hlocal Rule.reboot (by simp [Rule.withinLine])).mp (by decide +kernel), ?_⟩
  exact hdenied hs Rule.reboot (by simp [Rule.table]) "reboot" (.inr hl) ha

end CommandVetting
