import CommandVetting.Proofs.Audit.Outcome
import CommandVetting.Proofs.Pattern.Spacing
import CommandVetting.Proofs.Rule.LineFeeds

/-!
# Spacing is no evasion

How words are spaced does not matter to the rules. All patterns but two take spacing in repetitions only.
The rule against removing the root directory asks for one character of white space at its end, where any
run begins with one; the rule against editing the schedule of commands asks for one before the option,
where any run ends with one.

* `Rule.isSteady_of_mem`: the other rules;
* `exists_concat_of_respaced`: white space at the end of a line, after anything;
* `Rule.forbids_of_respaced`: what is forbidden stays forbidden with other spacing;
* **`forbids_respaced_agree`**: texts that differ in their spacing are judged alike.
-/

namespace CommandVetting

open Text (Respaced IsSeam)

variable {s t : Text}

/-- A text that ends in white space and has no line feed before it keeps this form with other spacing. -/
theorem exists_concat_of_respaced {m n : Text} {x : Char} (h : Respaced (m ++ [x]) n)
    (hx : isBlank x = true) (hm : '\n' ∉ m) : ∃ m' x', n = m' ++ [x'] ∧ isBlank x' = true ∧ '\n' ∉ m' := by
  have hnewline : ∀ {a b : Text}, Respaced a b → '\n' ∉ a → '\n' ∉ b := by
    intro a b hab ha hb
    obtain ⟨c, hc, rfl | ⟨-, hsp⟩⟩ := hab.exists_of_mem _ hb
    · exact ha hc
    · exact absurd hsp (by decide)
  by_cases hxn : x = '\n'
  · subst hxn
    have hsp : isSpacing '\n' = false := by decide
    obtain ⟨m', r, rfl, hm', hr⟩ := h.split (Text.isSeam_of_head? (by simpa using hsp))
    obtain rfl := hr.eq_of_no_spacing (by simpa using hsp)
    exact ⟨m', '\n', rfl, hx, hnewline hm' hm⟩
  · have hn : '\n' ∉ n := hnewline h (by simp [hm, Ne.symm hxn])
    have hlast := h.getLast?_map (f := isBlank) fun c d hc hd => by
      rw [isBlank_of_isSpacing hc, isBlank_of_isSpacing hd]
    rcases List.eq_nil_or_concat' n with rfl | ⟨m', x', rfl⟩
    · simp at hlast
    · refine ⟨m', x', rfl, ?_, fun hm' => hn (List.mem_append_left _ hm')⟩
      rw [← hx]
      simpa using hlast.symm

namespace Rule

/-- **All rules but two take spacing in repetitions only.** -/
theorem isSteady_of_mem {r : Rule} (hr : r ∈ table) (hroot : r ≠ rmRfRoot) (hedit : r ≠ crontabEdit) :
    r.pattern.isSteady = true := by
  have hall : ∀ r ∈ table, r.name = rmRfRoot.name ∨ r.name = crontabEdit.name ∨
      r.pattern.isSteady = true := by
    decide +kernel
  rcases hall r hr with h | h | h
  · exact absurd (eq_of_name_eq hr (by simp [table]) h) hroot
  · exact absurd (eq_of_name_eq hr (by simp [table]) h) hedit
  · exact h

theorem isSteady_rmRfRootStem : (Pattern.ofSeq rmRfRootStem).isSteady = true := rfl

theorem StartsBlank.respace {w w' : Text} (h : Respaced w w') (hw : StartsBlank w) :
    StartsBlank w' := by
  have hmap := h.head?_map (f := isBlank) fun c d hc hd => by
    rw [isBlank_of_isSpacing hc, isBlank_of_isSpacing hd]
  exact Text.forall_mem_of_map_eq hmap hw

/-- The text is cut before and behind the token, before the option and behind it. -/
theorem crontabEdit_forbids_of_respaced (h : Respaced s t) (hs : crontabEdit.forbids s = true) :
    crontabEdit.forbids t = true := by
  rw [crontabEdit_forbids_iff] at hs ⊢
  obtain ⟨u, v, m, _, w, rfl, hm, ⟨hreads, hne, hword, hleft, hright⟩, x, y, rfl, hx, hy, hw⟩ := hs
  have hv : ∀ c ∈ v, isSpacing c = false :=
    fun c hc => isSpacing_of_isAsciiWord (List.all_eq_true.mp hword c hc)
  have hflag : ∀ c ∈ ['-', y], isSpacing c = false := by
    have hy : isSpacing y = false := by rcases hy with rfl | rfl <;> decide
    simpa using ⟨by decide, hy⟩
  have hcut : u ++ v ++ m ++ [x, '-', y] ++ w = u ++ (v ++ ((m ++ [x]) ++ (['-', y] ++ w))) := by simp
  rw [hcut] at h
  obtain ⟨u', r₁, rfl, hu, h₁⟩ := h.split <| Text.isSeam_of_head? fun c hc => hv c <| by
    rw [List.head?_append_of_ne_nil v hne] at hc
    exact List.mem_of_head? hc
  obtain ⟨v', r₂, rfl, hv', h₂⟩ := h₁.split <|
    Text.isSeam_of_getLast? fun c hc => hv c (List.mem_of_getLast? hc)
  obtain rfl := hv'.eq_of_no_spacing hv
  have hafter : r₂.startsInWord = false := by
    rw [← h₂.startsInWord_eq, ← hright]
    simp
  obtain ⟨n, r₃, rfl, hn, h₃⟩ := h₂.split <|
    Text.isSeam_of_head? fun c hc => hflag c (List.mem_cons.mpr (.inl (by simpa using hc.symm)))
  obtain ⟨f, w', rfl, hf, hw'⟩ := h₃.split <|
    Text.isSeam_of_getLast? fun c hc => hflag c (List.mem_of_getLast? hc)
  obtain rfl := hf.eq_of_no_spacing hflag
  obtain ⟨m', x', rfl, hx', hm'⟩ := exists_concat_of_respaced hn hx hm
  refine ⟨u', v', m', [x', '-', y], w', by simp, hm', ⟨hreads, hne, hword, ?_, ?_⟩,
    x', y, rfl, hx', hy, ?_⟩
  · rw [← hu.endsInWord_eq]
    exact hleft
  · simpa using hafter
  · rw [← hw'.startsInWord_eq]
    exact hw

theorem forbids_of_respaced {r : Rule} (hr : r ∈ table) (h : Respaced s t) (hs : r.forbids s = true) :
    r.forbids t = true := by
  by_cases hroot : r = rmRfRoot
  · subst hroot
    rw [rmRfRoot_forbids_iff] at hs ⊢
    exact hs.respace isSteady_rmRfRootStem isSolid_rmRfRootStem h fun _ _ => StartsBlank.respace
  by_cases hedit : r = crontabEdit
  · subst hedit
    exact crontabEdit_forbids_of_respaced h hs
  · rw [forbids_iff_occursIn, Pattern.occursIn_iff_occursBefore] at hs ⊢
    exact hs.respace (isSteady_of_mem hr hroot hedit) (isLocal_isSolid_of_mem hr hroot).2 h
      fun _ _ _ => id

end Rule

/-- **Spacing is no evasion.** When every maximal run of white space within a line is replaced by a run of
any other length and kind, the same rules forbid the text, and the verdict is the same. -/
theorem forbids_respaced_agree (h : Respaced s t) :
    (∀ r ∈ Rule.table, r.forbids s = r.forbids t) ∧ audit s = audit t := by
  have hagree : ∀ {s t : Text}, Respaced s t → ∀ r ∈ Rule.table, r.forbids s = r.forbids t := by
    intro s t h r hr
    rw [Bool.eq_iff_iff]
    exact ⟨Rule.forbids_of_respaced hr h, Rule.forbids_of_respaced hr h.symm⟩
  exact ⟨hagree h, audit_eq_of_forbids_eq h.trim.eq_nil_iff (hagree h.trim)⟩

/-- A tab, separators of other scripts and a carriage return for blanks; the line feed stays. -/
theorem forbids_respaced_agree_rmRfRoot :
    let s : Text := "rm  -rf / \nls"
    let t : Text := "rm\t-rf\u2028\u00A0/\r\nls"
    Respaced s t ∧ audit s = audit t ∧ audit t = Rule.rmRfRoot.denial := by
  intro s t
  have hend : Respaced " \nls" "\r\nls" :=
    (Respaced.nil.keepAll (w := "\nls") (by decide)).replaceRun (a := " ") (b := "\r")
      (by simp) (by simp) (by decide) (by decide)
  have hroot : Respaced " / \nls" "\u2028\u00A0/\r\nls" :=
    (hend.keepAll (w := "/") (by decide)).replaceRun (a := " ") (b := "\u2028\u00A0")
      (by simp) (by simp) (by decide) (by decide)
  have hoption : Respaced "  -rf / \nls" "\t-rf\u2028\u00A0/\r\nls" :=
    (hroot.keepAll (w := "-rf") (by decide)).replaceRun (a := "  ") (b := "\t")
      (by simp) (by simp) (by decide) (by decide)
  have h : Respaced s t := hoption.keepAll (w := "rm") (by decide)
  exact ⟨h, (forbids_respaced_agree h).2, by decide +kernel⟩

end CommandVetting
