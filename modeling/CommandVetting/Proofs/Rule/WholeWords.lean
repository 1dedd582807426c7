import CommandVetting.Proofs.Rule.Meaning
import CommandVetting.Proofs.Text.Tokens
import CommandVetting.Rule.Table

/-!
# Rules about whole words

Twelve rules look for words between boundaries and for nothing else. In a text without the two signs that
fold to ASCII letters, they see its tokens, and for the name that has a hyphen in it whether a hyphen
stands alone between two tokens. Nothing else in the text matters to them.

* `Rule.wordRules`: the rules that ask for one token;
* `occursIn_freeWord_iff`: a keyword between boundaries, anywhere in a text;
* `Rule.rawDiskWrite_forbids_iff`, `Rule.clearEventlog_forbids_iff`: the rules that ask for one of two
  tokens, and for two tokens in a row;
* **`forbids_iff_hasToken`**: what the twelve rules forbid, told without patterns.
-/

namespace CommandVetting

open Pattern (letters freeWord)

variable {s t u v w word first second : Text}

/-! ## Words between boundaries -/

theorem occursIn_freeWord_iff (hkey : word.isKeyword = true) (hs : s.IsPlain) :
    (Pattern.ofSeq (freeWord word)).OccursIn s ↔ ∃ u v w, s = u ++ v ++ w ∧ Text.StandsFree word u v w := by
  refine exists_congr fun u => exists_congr fun v => exists_congr fun w => and_congr_right fun e => ?_
  have hv : v.IsPlain := hs.of_subset fun c hc => by simp [e, hc]
  exact derives_freeWord hkey hv.isPlainFor

theorem hasToken_iff (hkey : word.isKeyword = true) (hword : word.IsOneWord) :
    s.HasToken word ↔ ∃ u v w, s = u ++ v ++ w ∧ Text.StandsFree word u v w := by
  rw [← Text.tokenIs_eq_standsFree hkey hword.all_isAsciiWord]
  constructor
  · rintro ⟨v, hv, hcase⟩
    obtain ⟨u, w, e, htoken⟩ := Text.mem_tokens_iff.mp hv
    exact ⟨u, v, w, e, hcase, htoken⟩
  · rintro ⟨u, v, w, e, hcase, htoken⟩
    exact ⟨v, Text.mem_tokens_iff.mpr ⟨u, w, e, htoken⟩, hcase⟩

/-- One of two words between boundaries. -/
theorem derives_eitherWord : Derives (.ofSeq [.boundary, .alt (.ofSeq (letters first))
    (.ofSeq (letters second)), .boundary]) u v w ↔
      Derives (.ofSeq (freeWord first)) u v w ∨ Derives (.ofSeq (freeWord second)) u v w := by
  have halt : Derives (.alt (.ofSeq (letters first)) (.ofSeq (letters second))) u v w ↔
      Derives (.ofSeq (letters first)) u v w ∨ Derives (.ofSeq (letters second)) u v w := by
    constructor
    · intro h
      cases h with
      | altLeft h => exact .inl h
      | altRight h => exact .inr h
    · exact fun h => h.elim .altLeft .altRight
  have hrow : [Pattern.boundary, .alt (.ofSeq (letters first)) (.ofSeq (letters second)), .boundary] =
      .boundary :: ([.alt (.ofSeq (letters first)) (.ofSeq (letters second))] ++ [.boundary]) := rfl
  rw [hrow, freeWord, freeWord, derives_boundary_cons, derives_boundary_cons, derives_boundary_cons,
    derives_concat_boundary, derives_concat_boundary, derives_concat_boundary, Pattern.ofSeq, halt,
    or_and_right, and_or_left]

/-! ## The rules -/

namespace Rule

/-- The rules that ask for one token. -/
def wordRules : List (Rule × Text) :=
  [(diskpart, "diskpart"), (shutdown, "shutdown"), (reboot, "reboot"), (mimikatz, "mimikatz"),
   (rubeus, "rubeus"), (secretsdump, "secretsdump"), (psexec, "psexec"), (chisel, "chisel"),
   (frp, "frp"), (sharphound, "sharphound")]

theorem pattern_of_wordRule {r : Rule} (h : (r, word) ∈ wordRules) :
    r.pattern = .ofSeq (freeWord word) ∧ word.isKeyword = true ∧ word.IsOneWord := by
  have hall : ∀ x ∈ wordRules, x.1.pattern = .ofSeq (freeWord x.2) ∧ x.2.isKeyword = true ∧ x.2 ≠ [] ∧
      x.2.all isAsciiWord = true := by
    decide +kernel
  obtain ⟨hp, hkey, hne, hword⟩ := hall _ h
  exact ⟨hp, hkey, hne, hword⟩

theorem forbids_iff_hasToken_of_wordRule {r : Rule} (h : (r, word) ∈ wordRules) (hs : s.IsPlain) :
    r.forbids s = true ↔ s.HasToken word := by
  obtain ⟨hp, hkey, hword⟩ := pattern_of_wordRule h
  rw [forbids_iff_occursIn, hp, occursIn_freeWord_iff hkey hs, hasToken_iff hkey hword]

theorem rawDiskWrite_forbids_iff (hs : s.IsPlain) :
    rawDiskWrite.forbids s = true ↔ s.HasToken "dd" ∨ s.HasToken "shred" := by
  have hp : rawDiskWrite.pattern = .ofSeq [.boundary, .alt (.ofSeq (letters "dd"))
      (.ofSeq (letters "shred")), .boundary] := by
    decide +kernel
  have hdd : Text.isKeyword "dd" = true := by decide
  have hshred : Text.isKeyword "shred" = true := by decide
  rw [forbids_iff_occursIn, hp, hasToken_iff hdd ⟨by decide, by decide⟩,
    hasToken_iff hshred ⟨by decide, by decide⟩, ← occursIn_freeWord_iff hdd hs,
    ← occursIn_freeWord_iff hshred hs]
  simp only [Pattern.OccursIn, derives_eitherWord, and_or_left, exists_or]

theorem clearEventlog_forbids_iff (hs : s.IsPlain) :
    clearEventlog.forbids s = true ↔ s.HasHyphenated "clear" "eventlog" := by
  have hp : clearEventlog.pattern = .ofSeq (freeWord "Clear-EventLog") := by decide +kernel
  have hcase : Text.StandsFree "Clear-EventLog" = Text.StandsFree ("clear" ++ '-' :: "eventlog") := by
    funext u x w
    exact propext ⟨fun h => ⟨h.reads, h.left, h.right⟩, fun h => ⟨h.reads, h.left, h.right⟩⟩
  rw [forbids_iff_occursIn, hp, occursIn_freeWord_iff (by decide +kernel) hs, hcase,
    Text.hasHyphenated_iff ⟨by decide, by decide⟩ ⟨by decide, by decide⟩]

/-- **The rules about whole words see nothing but the outline of a text.** -/
theorem forbids_eq_of_outline_eq {r : Rule}
    (hr : r ∈ rawDiskWrite :: clearEventlog :: wordRules.map Prod.fst) (hs : s.IsPlain) (ht : t.IsPlain)
    (h : t.outline = s.outline) : r.forbids t = r.forbids s := by
  have hdd : Text.IsOneWord "dd" := ⟨by decide, by decide⟩
  have hshred : Text.IsOneWord "shred" := ⟨by decide, by decide⟩
  have hclear : Text.IsOneWord "clear" := ⟨by decide, by decide⟩
  have heventlog : Text.IsOneWord "eventlog" := ⟨by decide, by decide⟩
  rw [Bool.eq_iff_iff]
  rcases List.mem_cons.mp hr with rfl | hr
  · rw [rawDiskWrite_forbids_iff hs, rawDiskWrite_forbids_iff ht]
    simp only [Text.hasToken_iff_mem_outline hdd, Text.hasToken_iff_mem_outline hshred, h]
  rcases List.mem_cons.mp hr with rfl | hr
  · rw [clearEventlog_forbids_iff hs, clearEventlog_forbids_iff ht,
      Text.hasHyphenated_iff_infix_outline hclear heventlog,
      Text.hasHyphenated_iff_infix_outline hclear heventlog, h]
  · obtain ⟨⟨r, word⟩, hmem, rfl⟩ := List.mem_map.mp hr
    obtain ⟨-, -, hword⟩ := pattern_of_wordRule hmem
    rw [forbids_iff_hasToken_of_wordRule hmem hs, forbids_iff_hasToken_of_wordRule hmem ht,
      Text.hasToken_iff_mem_outline hword, Text.hasToken_iff_mem_outline hword, h]

end Rule

/-- **What the rules about whole words forbid.** In a text without the two signs that fold to ASCII
letters, ten rules ask for a token, one for either of two tokens, and one for two consecutive tokens with
exactly a hyphen between them. No other character matters: a text with the same outline is judged alike. -/
theorem forbids_iff_hasToken {s : Text} (hs : longS ∉ s) (hk : kelvinSign ∉ s) :
    (∀ r word, (r, word) ∈ Rule.wordRules → (r.forbids s = true ↔ s.HasToken word)) ∧
    (Rule.rawDiskWrite.forbids s = true ↔ s.HasToken "dd" ∨ s.HasToken "shred") ∧
    (Rule.clearEventlog.forbids s = true ↔ s.HasHyphenated "clear" "eventlog") ∧
    ∀ t : Text, longS ∉ t → kelvinSign ∉ t → t.outline = s.outline →
      ∀ r ∈ Rule.rawDiskWrite :: Rule.clearEventlog :: Rule.wordRules.map Prod.fst,
        r.forbids t = r.forbids s :=
  ⟨fun _ _ h => Rule.forbids_iff_hasToken_of_wordRule h ⟨hs, hk⟩, Rule.rawDiskWrite_forbids_iff ⟨hs, hk⟩,
    Rule.clearEventlog_forbids_iff ⟨hs, hk⟩,
    fun _ hs' hk' h _ hr => Rule.forbids_eq_of_outline_eq hr ⟨hs, hk⟩ ⟨hs', hk'⟩ h⟩

/-- Letters of other scripts end a token, and the underscore and digits do not; a second text has other
signs between the same tokens. -/
theorem forbids_iff_hasToken_mimikatz :
    let s : Text := "\u8FD0\u884CMimiKatz\u00E9 shutdown_x 2frp; CLEAR-eventlog--clear"
    let t : Text := "mimikatz\u0301\n/Shutdown_X 2FRP\u2028clear-eventlog\u2010CLEAR\u3000"
    longS ∉ s ∧ kelvinSign ∉ s ∧ s.HasToken "mimikatz" ∧ ¬ s.HasToken "shutdown" ∧ ¬ s.HasToken "frp" ∧
      s.HasHyphenated "clear" "eventlog" ∧ Rule.mimikatz.forbids t = Rule.mimikatz.forbids s := by
  intro s t
  have hs : longS ∉ s := by decide +kernel
  have hk : kelvinSign ∉ s := by decide +kernel
  obtain ⟨hword, -, hclear, hother⟩ := forbids_iff_hasToken hs hk
  have hmimikatz := hword Rule.mimikatz "mimikatz" (by simp [Rule.wordRules])
  have hshutdown := hword Rule.shutdown "shutdown" (by simp [Rule.wordRules])
  have hfrp := hword Rule.frp "frp" (by simp [Rule.wordRules])
  have hallowed : Rule.shutdown.forbids s ≠ true ∧ Rule.frp.forbids s ≠ true := by decide +kernel
  refine ⟨hs, hk, hmimikatz.mp (by decide +kernel), fun h => hallowed.1 (hshutdown.mpr h),
    fun h => hallowed.2 (hfrp.mpr h), hclear.mp (by decide +kernel), ?_⟩
  exact hother t (by decide +kernel) (by decide +kernel) (by decide +kernel) _ (by simp [Rule.wordRules])

end CommandVetting
