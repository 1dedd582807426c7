import Mathlib.Data.List.Infix
import CommandVetting.Platform
import CommandVetting.Proofs.Audit.Outcome
import CommandVetting.Proofs.Pattern.Parts

/-!
# Batches of baseline commands

Baseline commands can be put together into one text, with blanks and the signs of the shell between them.
Each rule but one asks for a part that no baseline command has; a part of this kind names none of the
signs between the commands, so that it cannot arise where two of them meet.

* `IsBaseline`, `IsBatch`: baseline commands, and texts with signs between them;
* `IsBatch.exists_occursBefore`: **what occurs in a batch occurs in a command of it**;
* `baselineCommands_checked`: what the rules ask for, and what baseline commands have;
* `IsBatch.not_forbids`: no rule forbids a batch;
* **`audit_batch_eq_allow`**: a batch is allowed, with padding around it.
-/

namespace CommandVetting

open Pattern (letters)
open Rule (StartsBlank)

variable {p : Pattern} {K : Text → Prop} {t c : Text} {cs : List Text}

/-! ## Batches -/

/-- The signs that may stand between two commands. -/
def separators : List Char := [' ', '\t', '\n', ';', '&', '|']

/-- The text consists of the commands, with separators between each two. -/
inductive IsBatch : List Text → Text → Prop where
  | single (c : Text) : IsBatch [c] c
  | cons {c s t : Text} {cs : List Text} (hs : s ≠ []) (hsep : ∀ x ∈ s, x ∈ separators)
    (rest : IsBatch cs t) : IsBatch (c :: cs) (c ++ s ++ t)

/-- The command is in the list of a platform. -/
def IsBaseline (c : Text) : Prop := ∃ p : Platform, ∃ task ∈ p.tasks, task.command = c

/-- The baseline commands of all platforms. -/
def baselineCommands : List Text := Platform.all.flatMap fun p => p.tasks.map Task.command

theorem IsBaseline.mem (h : IsBaseline c) : c ∈ baselineCommands := by
  obtain ⟨p, task, htask, rfl⟩ := h
  refine List.mem_flatMap.mpr ⟨p, ?_, List.mem_map_of_mem htask⟩
  cases p <;> decide

/-- The pattern names no separator and sees no difference between a separator and an end of the text. -/
def Pattern.isUnit (p : Pattern) : Bool := p.isLocal && !p.nullable && separators.all p.lacks

/-- **What occurs in a batch occurs in a command of it.** -/
theorem IsBatch.exists_occursBefore (h : IsBatch cs t) (hp : p.isUnit = true)
    (hK : ∀ w r, K (w ++ r) → K w) (ho : p.OccursBefore K t) : ∃ c ∈ cs, p.OccursBefore K c := by
  simp only [Pattern.isUnit, Bool.and_eq_true, Bool.not_eq_true', List.all_eq_true] at hp
  obtain ⟨⟨hlocal, hn⟩, hlacks⟩ := hp
  induction h with
  | single c => exact ⟨c, List.mem_singleton_self c, ho⟩
  | @cons c s t cs hs hsep rest ih =>
    have hword : separators.all (!isAsciiWord ·) = true := by decide
    have hsigns : ∀ x ∈ s, p.lacks x = true ∧ isAsciiWord x = false := fun x hx =>
      ⟨hlacks x (hsep x hx), (Bool.not_eq_true' _).mp (List.all_eq_true.mp hword x (hsep x hx))⟩
    rcases ho.of_append_append hs hlocal hn hsigns hK with hc | ht
    · exact ⟨c, List.mem_cons_self, hc⟩
    · obtain ⟨d, hd, ho⟩ := ih ht
      exact ⟨d, List.mem_cons_of_mem c hd, ho⟩

/-! ## What the rules ask for -/

/-- **The rules and the lists side by side.** Every rule but one asks for a part that no baseline command
has; no baseline command has the word that the remaining rule asks for before white space; and each
starts and ends on something else than padding. -/
theorem baselineCommands_checked :
    (∀ r ∈ Rule.table, r.name = Rule.formatDrive.name ∨
      ∃ ps ∈ r.pattern.row.tails, ∃ qs ∈ ps.inits, (Pattern.ofSeq qs).isUnit = true ∧
        ∀ c ∈ baselineCommands, (Pattern.ofSeq qs).search c = false) ∧
    (∀ c ∈ baselineCommands,
      (Pattern.ofSeq (letters "format" ++ [.alt (.one .blank) .stop])).search c = false) ∧
    ∀ c ∈ baselineCommands,
      c.head?.any (!isPadding ·) = true ∧ c.getLast?.any (!isPadding ·) = true := by
  decide +kernel

namespace Rule

theorem exists_missing_part {r : Rule} (hr : r ∈ table) (h : r ≠ formatDrive) :
    ∃ qs, qs <:+: r.pattern.row ∧ (Pattern.ofSeq qs).isUnit = true ∧
      ∀ c, IsBaseline c → ¬ (Pattern.ofSeq qs).OccursIn c := by
  rcases baselineCommands_checked.1 r hr with hn | ⟨ps, hps, qs, hqs, hunit, hnone⟩
  · exact absurd (eq_of_name_eq hr (by simp [table]) hn) h
  · -- The parts of a row are the beginnings of its ends.
    refine ⟨qs, ?_, hunit, fun c hc ho => ?_⟩
    · exact ((List.mem_inits qs ps).mp hqs).isInfix.trans ((List.mem_tails ps _).mp hps).isInfix
    · have hfound := (Pattern.search_iff _ c).mpr ho
      rw [hnone c hc.mem] at hfound
      cases hfound

/-- The remaining rule asks for a word before white space. -/
theorem occursBefore_of_formatDrive (h : formatDrive.forbids t = true) :
    (Pattern.ofSeq (letters "format")).OccursBefore StartsBlank t := by
  have hrow : letters "format" ++ [.one .blank] <:+: formatDrive.pattern.row := by decide +kernel
  obtain ⟨u, v, w, e, hd⟩ := (forbids_iff_occursIn.mp h).part hrow
  obtain ⟨v₁, v₂, rfl, hword, hblank⟩ := derives_ofSeq_append.mp hd
  refine occursIn_concat_end_iff.mp ⟨u, v₁ ++ v₂, w, e, derives_ofSeq_append.mpr ?_⟩
  exact ⟨v₁, v₂, rfl, hword, .altLeft hblank⟩

theorem not_occursBefore_of_isBaseline (hc : IsBaseline c) :
    ¬ (Pattern.ofSeq (letters "format")).OccursBefore StartsBlank c := by
  rw [← occursIn_concat_end_iff, ← Pattern.search_iff, baselineCommands_checked.2.1 c hc.mem]
  simp

end Rule

/-- **No rule forbids a batch of baseline commands.** -/
theorem IsBatch.not_forbids (h : IsBatch cs t) (hcs : ∀ c ∈ cs, IsBaseline c) {r : Rule}
    (hr : r ∈ Rule.table) : r.forbids t = false := by
  rw [← Bool.not_eq_true]
  intro hf
  by_cases hformat : r = Rule.formatDrive
  · subst hformat
    have hunit : (Pattern.ofSeq (letters "format")).isUnit = true := by decide +kernel
    obtain ⟨c, hc, ho⟩ := h.exists_occursBefore hunit (fun _ _ => StartsBlank.of_append)
      (Rule.occursBefore_of_formatDrive hf)
    exact Rule.not_occursBefore_of_isBaseline (hcs c hc) ho
  · obtain ⟨qs, hqs, hunit, hnone⟩ := Rule.exists_missing_part hr hformat
    have ho := (Rule.forbids_iff_occursIn.mp hf).part hqs
    rw [Pattern.occursIn_iff_occursBefore] at ho
    obtain ⟨c, hc, ho⟩ := h.exists_occursBefore hunit (fun _ _ => id) ho
    exact hnone c (hcs c hc) (Pattern.occursIn_iff_occursBefore.mpr ho)

/-! ## The verdict -/

/-- Baseline commands start and end on something else than padding, and so does a batch of them. -/
theorem IsBatch.ends (h : IsBatch cs t) (hcs : ∀ c ∈ cs, IsBaseline c) :
    (∃ x ∈ t.head?, isPadding x = false) ∧ ∃ x ∈ t.getLast?, isPadding x = false := by
  have hends : ∀ c, IsBaseline c →
      (∃ x ∈ c.head?, isPadding x = false) ∧ ∃ x ∈ c.getLast?, isPadding x = false := by
    intro c hc
    simpa [Option.any_eq_true] using baselineCommands_checked.2.2 c hc.mem
  induction h with
  | single c => exact hends c (hcs c (List.mem_singleton_self c))
  | @cons c s t cs hs hsep rest ih =>
    obtain ⟨⟨x, hx, hxp⟩, -⟩ := hends c (hcs c List.mem_cons_self)
    obtain ⟨-, y, hy, hyp⟩ := ih fun d hd => hcs d (List.mem_cons_of_mem c hd)
    refine ⟨⟨x, ?_, hxp⟩, y, ?_, hyp⟩
    · rw [List.append_assoc, List.head?_append, Option.mem_def.mp hx]
      rfl
    · rw [List.getLast?_append, Option.mem_def.mp hy]
      rfl

theorem IsBatch.trim_eq (h : IsBatch cs t) (hcs : ∀ c ∈ cs, IsBaseline c) : t.trim = t ∧ t ≠ [] := by
  obtain ⟨⟨x, hx, hxp⟩, y, hy, hyp⟩ := h.ends hcs
  have htrims : t.Trims t := by
    refine ⟨[], [], by simp, by simp, by simp, fun c hc => ?_, fun c hc => ?_⟩
    · rwa [Option.mem_unique hc hx]
    · rwa [Option.mem_unique hc hy]
  refine ⟨(Text.trims_iff.mp htrims).symm, ?_⟩
  rintro rfl
  cases hx

/-- **A batch of baseline commands is allowed.** Baseline commands in any order and number, of either
platform, with any separators between them and any padding around them, are one text that is allowed and
run. -/
theorem audit_batch_eq_allow {cs : List Text} {t : Text} (h : IsBatch cs t)
    (hcs : ∀ c ∈ cs, IsBaseline c) {a b : Text} (ha : ∀ x ∈ a, isPadding x = true)
    (hb : ∀ x ∈ b, isPadding x = true) :
    audit (a ++ t ++ b) = .allow ∧ decisionOn (a ++ t ++ b) = .execute := by
  obtain ⟨htrim, hne⟩ := h.trim_eq hcs
  have hallow : audit (a ++ t ++ b) = .allow := by
    rw [audit_eq_allow_iff, Text.trim_padding ha hb, htrim, Rule.first?]
    refine ⟨hne, List.find?_eq_none.mpr fun r hr => ?_⟩
    rw [h.not_forbids hcs hr]
    simp
  exact ⟨hallow, decisionOn_eq_execute_iff.mpr hallow⟩

/-- Commands of both platforms. The one that stands there twice starts with the word of a rule. -/
theorem audit_batch_eq_allow_netsh :
    let netsh : Text := "netsh advfirewall show allprofiles"
    let id : Text := "id"
    let a : Text := "\uFEFF\n"
    let t : Text := netsh ++ ("\t&&\n" : Text) ++ (id ++ (";" : Text) ++ netsh)
    let b : Text := "\u3000"
    audit (a ++ t ++ b) = .allow ∧ decisionOn (a ++ t ++ b) = .execute := by
  intro netsh id a t b
  have hbatch : IsBatch [netsh, id, netsh] t :=
    .cons (by decide) (by simp [separators]) (.cons (by decide) (by simp [separators]) (.single netsh))
  have hnetsh : IsBaseline netsh :=
    ⟨.windows, ⟨"firewall", netsh⟩, List.mem_of_getElem? (i := 3) rfl, rfl⟩
  have hid : IsBaseline id := ⟨.linux, ⟨"identity", id⟩, List.mem_of_getElem? (i := 0) rfl, rfl⟩
  have ha : ∀ x ∈ a, isPadding x = true := by simp [a, isPadding, isBlank, byteOrderMark]
  have hb : ∀ x ∈ b, isPadding x = true := by simp [b, isPadding, isBlank]
  exact audit_batch_eq_allow hbatch (by simp [hnetsh, hid]) ha hb

end CommandVetting
