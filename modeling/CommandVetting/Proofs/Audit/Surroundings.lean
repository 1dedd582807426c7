import CommandVetting.Proofs.Audit.Outcome

/-!
# The text around a command

A forbidden command stays forbidden when other text is put around it, and the padding around a
command hides nothing.

* **`exists_denial_of_embedded`**: a denied command does not pass as a part of a larger one;
* `Rule.forbids_of_forbids_trim`: what is forbidden without its padding is forbidden with it;
* **`forbids_trim_agree`**: a rule forbids a text and the trimmed text alike.
-/

namespace CommandVetting

/-! ## Commands in larger texts -/

/-- **A denied command does not pass as a part of a larger one.** If words do not grow together at the
seams, the larger command is denied by the same rule or one before it; after the removal of the root
directory, white space has to follow. -/
theorem exists_denial_of_embedded {s p q : Text} {r : Rule} (hr : r ∈ Rule.table)
    (hs : audit s = r.denial) (hfirst : ∀ c ∈ s.head?, isPadding c = false)
    (hlast : ∀ c ∈ s.getLast?, isPadding c = false)
    (hp : ∀ c ∈ p.getLast?, isAsciiWord c = false) (hq : ∀ c ∈ q.head?, isAsciiWord c = false)
    (hroot : r = Rule.rmRfRoot → ∀ c ∈ q.head?, isBlank c = true) :
    ∃ r' : Rule, r'.AtOrBefore r ∧ audit (p ++ s ++ q) = r'.denial := by
  obtain ⟨hne, hf⟩ := (audit_eq_denial_iff hr).mp hs
  rw [Text.trim_eq_self hfirst hlast] at hne hf
  have hforb : r.forbids s = true := Rule.forbids_of_first? hf
  refine exists_denial_of_forbids hr ?_
  rw [Text.trim_append_append hne hfirst hlast]
  exact Rule.forbids_embed hr hforb
    (Text.endsInWord_eq_false fun c hc => hp c (Text.getLast?_of_trimStart hc))
    (Text.startsInWord_eq_false fun c hc => hq c (Text.head?_of_trimEnd hc))
    fun hroot' c hc => hroot hroot' c (Text.head?_of_trimEnd hc)

/-- The removal of the root directory, between two other commands and on a line of its own. -/
theorem exists_denial_of_embedded_rmRfRoot :
    audit "rm -rf /" = Rule.rmRfRoot.denial ∧
      ∃ r' : Rule, r'.AtOrBefore Rule.rmRfRoot ∧
        audit (("true\n" : Text) ++ ("rm -rf /" : Text) ++ ("\n# done" : Text)) = r'.denial := by
  have hs : audit "rm -rf /" = Rule.rmRfRoot.denial := by decide +kernel
  refine ⟨hs, exists_denial_of_embedded (by simp [Rule.table]) hs ?_ ?_ ?_ ?_ fun _ => ?_⟩
  all_goals
    rintro c ⟨⟩
    decide +kernel

/-! ## Padding -/

namespace Rule

theorem forbids_trim {r : Rule} {s : Text} (hr : r ∈ table) (h : r.forbids s = true) :
    r.forbids s.trim = true := by
  obtain ⟨a, b, e, ha, hb, -, -⟩ := Text.trims_trim s
  rw [e] at h
  exact forbids_cut hr h ha hb

/-- **What is forbidden without its padding is forbidden with it**, if white space stands first where
the rule looks at it. -/
theorem forbids_of_forbids_trim {r : Rule} {s a b : Text} (hr : r ∈ table)
    (e : s = a ++ s.trim ++ b) (hroot : r = rmRfRoot → StartsBlank b)
    (h : r.forbids s.trim = true) : r.forbids s = true := by
  have hs : s.trim ≠ [] := by
    intro ht
    rw [ht, forbids_nil hr] at h
    cases h
  obtain ⟨ha, hb⟩ := Text.isPadding_around_trim e hs
  rw [e]
  exact forbids_embed hr h (Text.endsInWord_of_isPadding ha) (Text.startsInWord_of_isPadding hb) hroot

end Rule

/-- **Trimming hides no match.** A rule that forbids a text forbids the trimmed text, and conversely,
except that the removal of the root directory may have been ended by what was trimmed; so whatever a
rule finds in the whole text leads to a denial, by this rule or one before it. -/
theorem forbids_trim_agree (s : Text) :
    (∀ r ∈ Rule.table, r.forbids s = true → r.forbids s.trim = true) ∧
    (∀ r ∈ Rule.table, r ≠ Rule.rmRfRoot → r.forbids s = r.forbids s.trim) ∧
    (∀ a b, s = a ++ s.trim ++ b → (∀ c ∈ b.head?, isBlank c = true) →
      Rule.rmRfRoot.forbids s = Rule.rmRfRoot.forbids s.trim) ∧
    ∀ r ∈ Rule.table, r.forbids s = true →
      ∃ r' : Rule, r'.AtOrBefore r ∧ audit s = r'.denial := by
  refine ⟨fun r hr => Rule.forbids_trim hr, fun r hr hne => ?_, fun a b e hb => ?_, fun r hr h => ?_⟩
  · obtain ⟨a, b, e, -⟩ := Text.trims_trim s
    rw [Bool.eq_iff_iff]
    exact ⟨Rule.forbids_trim hr, Rule.forbids_of_forbids_trim hr e fun hroot => absurd hroot hne⟩
  · have hr : Rule.rmRfRoot ∈ Rule.table := List.mem_cons_self
    rw [Bool.eq_iff_iff]
    exact ⟨Rule.forbids_trim hr, Rule.forbids_of_forbids_trim hr e fun _ => hb⟩
  · exact exists_denial_of_forbids hr (Rule.forbids_trim hr h)

/-- The removal of the root directory, ended by an ideographic space. -/
theorem forbids_trim_agree_rmRfRoot :
    Rule.rmRfRoot.forbids "\t rm -rf /\u3000\uFEFF" = Rule.rmRfRoot.forbids "rm -rf /" ∧
      ∃ r' : Rule, r'.AtOrBefore Rule.rmRfRoot ∧ audit "\t rm -rf /\u3000\uFEFF" = r'.denial := by
  have htrim : Text.trim "\t rm -rf /\u3000\uFEFF" = "rm -rf /" := by decide +kernel
  obtain ⟨-, -, hroot, hdenial⟩ := forbids_trim_agree "\t rm -rf /\u3000\uFEFF"
  rw [htrim] at hroot
  have hblank : ∀ c ∈ ("\u3000\uFEFF" : Text).head?, isBlank c = true := by
    rintro c ⟨⟩
    decide +kernel
  exact ⟨hroot "\t " "\u3000\uFEFF" (by decide +kernel) hblank,
    hdenial Rule.rmRfRoot (by simp [Rule.table]) (by decide +kernel)⟩

example : Rule.rmRfRoot.forbids "rm -rf /\uFEFF" = false ∧
    Rule.rmRfRoot.forbids (Text.trim "rm -rf /\uFEFF") = true := by
  decide +kernel

end CommandVetting
