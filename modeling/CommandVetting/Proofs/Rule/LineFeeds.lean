import CommandVetting.Proofs.Rule.Pairs

/-!
# Rules that reach over a line feed

Two rules have a head, anything up to the end of the line, and a tail with white space in it. What
stands between the head and the tail is kept in one line, but the white space of the tail may be a line
feed itself.

* `Text.EditFlag`: white space and the option that opens the editor;
* `Text.Spaced`: two spans with nothing but white space between them;
* `derives_alt_start_cons`: the start of the text is not met behind a head; `Rule.crontabEditInside`: the
  rule without this alternative;
* `derives_spacedPair`: two words and the white space between them;
* **`forbids_iff_across_lines`**: what the two rules forbid, told without patterns.
-/

namespace CommandVetting

open Pattern (letters freeWord)

variable {s u v w first second : Text}

/-! ## The tails -/

namespace Text

/-- White space, a hyphen and the letter `e`, with no ASCII word character behind them. -/
def EditFlag (_before span after : Text) : Prop :=
  ∃ x y, span = [x, '-', y] ∧ isBlank x = true ∧ (y = 'e' ∨ y = 'E') ∧ after.startsInWord = false

/-- A span of the first kind and one of the second with white space between them, and nothing else. -/
def Spaced (first second : Text → Text → Text → Prop) (before span after : Text) : Prop :=
  ∃ v blanks v', span = v ++ blanks ++ v' ∧ first before v (blanks ++ v' ++ after) ∧ blanks ≠ [] ∧
    (∀ c ∈ blanks, isBlank c = true) ∧ second (before ++ v ++ blanks) v' after

theorem reads_edit_iff : Reads "-e" u v w ↔ v = ['-', 'e'] ∨ v = ['-', 'E'] := by
  have hlower : ∀ c : Char, (c.toLower = '-' → c = '-') ∧ (c.toLower = 'e' → c = 'e' ∨ c = 'E') := by
    exact toLower_cases (P := fun c d => (d = '-' → c = '-') ∧ (d = 'e' → c = 'e' ∨ c = 'E'))
      (by decide) fun _ _ => ⟨id, .inl⟩
  constructor
  · intro h
    obtain ⟨a, r, rfl, ha, hr⟩ := List.map_eq_cons_iff.mp (h : v.map Char.toLower = ['-', 'e'])
    obtain ⟨b, r, rfl, hb, hr⟩ := List.map_eq_cons_iff.mp hr
    obtain rfl := List.map_eq_nil_iff.mp hr
    obtain rfl := (hlower a).1 ha
    exact ((hlower b).2 hb).imp (congrArg fun c => ['-', c]) (congrArg fun c => ['-', c])
  · rintro (rfl | rfl) <;> rfl

end Text

/-! ## What the tails derive -/

/-- **The start of the text is not met behind a character.** -/
theorem derives_alt_start_cons {p : Pattern} {ps : List Pattern} (hu : u ≠ []) :
    Derives (.ofSeq (.alt .start p :: ps)) u v w ↔ Derives (.ofSeq (p :: ps)) u v w := by
  rw [derives_ofSeq_cons, derives_ofSeq_cons]
  constructor
  · intro h
    cases h with
    | seq left right =>
      cases left with
      | altLeft h =>
        cases h
        exact absurd rfl hu
      | altRight h => exact .seq h right
  · intro h
    cases h with
    | seq left right => exact .seq (.altRight left) right

theorem derives_editFlag : Derives (.ofSeq (.one .blank :: (letters "-e" ++ [.boundary]))) u v w ↔
    Text.EditFlag u v w := by
  have hplain : Text.IsPlain "-e" := ⟨by decide, by decide⟩
  have hclear : ∀ t, Text.IsPlainFor "-e" t := fun t => ⟨fun _ => by decide, fun _ => by decide⟩
  rw [derives_ofSeq_cons]
  constructor
  · intro h
    cases h with
    | seq left right =>
      cases left with
      | @one _ _ _ x hx =>
        obtain ⟨hflag, hend⟩ := derives_concat_boundary.mp right
        have hreads := (derives_letters_iff_reads hplain (hclear _)).mp hflag
        have hafter := (derives_append_boundary (hreads.endsInWord.trans (by decide))).mp hend
        rcases Text.reads_edit_iff.mp hreads with rfl | rfl
        · exact ⟨x, 'e', rfl, hx, .inl rfl, hafter⟩
        · exact ⟨x, 'E', rfl, hx, .inr rfl, hafter⟩
  · rintro ⟨x, y, rfl, hx, hy, hafter⟩
    have hreads : Text.Reads "-e" (u ++ [x]) ['-', y] w :=
      Text.reads_edit_iff.mpr (hy.imp (congrArg fun c => ['-', c]) (congrArg fun c => ['-', c]))
    refine .seq (v := [x]) (.one hx) (derives_concat_boundary.mpr ⟨?_, ?_⟩)
    · exact (derives_letters_iff_reads hplain (hclear _)).mpr hreads
    · exact (derives_append_boundary (hreads.endsInWord.trans (by decide))).mpr hafter

/-- **Two keywords with white space between them** stand free. -/
theorem derives_spacedPair (hfirst : first.isKeyword = true) (hsecond : second.isKeyword = true)
    (hv : Text.IsPlainFor first v) (hv' : Text.IsPlainFor second v) :
    Derives (.ofSeq (.boundary :: (letters first ++
      .plus (.one .blank) :: (letters second ++ [.boundary])))) u v w ↔
    Text.Spaced (Text.StandsFree first) (Text.StandsFree second) u v w := by
  obtain ⟨hplain, hstart, -⟩ := Text.isKeyword_iff.mp hfirst
  obtain ⟨hplain', -, hend⟩ := Text.isKeyword_iff.mp hsecond
  -- White space is no part of a word, on either side.
  have hgap : ∀ {blanks : Text}, blanks ≠ [] → (∀ c ∈ blanks, isBlank c = true) → ∀ t : Text,
      (t ++ blanks).endsInWord = false ∧ (blanks ++ t).startsInWord = false := by
    intro blanks hne hb t
    have hnot : ∀ c ∈ blanks, isAsciiWord c = false := fun c hc =>
      isAsciiWord_of_isPadding (isPadding_of_isBlank (hb c hc))
    refine ⟨Text.endsInWord_eq_false fun c hc => ?_, Text.startsInWord_eq_false fun c hc => ?_⟩
    · rw [List.getLast?_append_of_ne_nil t hne] at hc
      exact hnot c (List.mem_of_getLast? hc)
    · rw [List.head?_append_of_ne_nil blanks hne] at hc
      exact hnot c (List.mem_of_head? hc)
  rw [derives_boundary_cons]
  constructor
  · rintro ⟨hl, h⟩
    obtain ⟨v₁, y, rfl, h₁, h⟩ := derives_ofSeq_append.mp h
    cases derives_ofSeq_cons.mp h with
    | @seq _ _ _ blanks v₂ _ hm h =>
      obtain ⟨h₂, hr⟩ := derives_concat_boundary.mp h
      obtain ⟨hne, hb⟩ := derives_plus_one.mp hm
      have hr₁ := (derives_letters_iff_reads hplain (hv.of_subset fun c hc => by simp [hc])).mp h₁
      have hr₂ := (derives_letters_iff_reads hplain' (hv'.of_subset fun c hc => by simp [hc])).mp h₂
      rw [List.append_assoc] at hl
      refine ⟨v₁, blanks, v₂, by simp, ⟨hr₁, ?_, ?_⟩, hne, hb, ⟨hr₂, (hgap hne hb _).1, ?_⟩⟩
      · exact (derives_boundary_append (hr₁.startsInWord.trans hstart)).mp hl
      · rw [List.append_assoc]
        exact (hgap hne hb _).2
      · exact (derives_append_boundary (hr₂.endsInWord.trans hend)).mp hr
  · rintro ⟨v₁, blanks, v₂, rfl, ⟨hr₁, hl, -⟩, hne, hb, ⟨hr₂, -, hr⟩⟩
    rw [List.append_assoc, List.append_assoc]
    refine ⟨(derives_boundary_append (hr₁.startsInWord.trans hstart)).mpr hl,
      derives_ofSeq_append.mpr ⟨v₁, blanks ++ v₂, List.append_assoc .., ?_, derives_ofSeq_cons.mpr (.seq ?_ ?_)⟩⟩
    · exact (derives_letters_iff_reads hplain (hv.of_subset fun c hc => by simp [hc])).mpr hr₁
    · exact derives_plus_one.mpr ⟨hne, hb⟩
    · refine derives_concat_boundary.mpr ⟨?_, (derives_append_boundary
        (hr₂.endsInWord.trans hend)).mpr hr⟩
      exact (derives_letters_iff_reads hplain' (hv'.of_subset fun c hc => by simp [hc])).mpr hr₂

/-! ## The two rules -/

namespace Rule

/-- The rule against editing the schedule of commands, without the alternative for the start of the
text. -/
def crontabEditInside : Rule :=
  .ofSource .persistence "crontab-edit" r"\bcrontab\b.*\s-e\b" (by decide +kernel)

theorem crontabEditInside_forbids_iff :
    crontabEditInside.forbids s = true ↔ s.HasOnward (Text.TokenIs "crontab") Text.EditFlag := by
  have hp : crontabEditInside.pattern =
      .headAndTail "crontab" (.one .blank :: (letters "-e" ++ [.boundary])) := by
    decide +kernel
  have hclear : Text.IsPlainFor "crontab" s := ⟨fun _ => by decide, fun _ => by decide⟩
  rw [Text.tokenIs_eq_standsFree (by decide +kernel) (by decide +kernel), forbids_iff_occursIn, hp]
  exact occursIn_iff_hasOnward (by decide +kernel) hclear fun u v w _ _ => derives_editFlag

/-- The alternative for the start of the text never counts, since a head stands before it. -/
theorem crontabEdit_forbids_iff :
    crontabEdit.forbids s = true ↔ s.HasOnward (Text.TokenIs "crontab") Text.EditFlag := by
  have hp : crontabEdit.pattern =
      .headAndTail "crontab" (.alt .start (.one .blank) :: (letters "-e" ++ [.boundary])) := by
    decide +kernel
  have hclear : Text.IsPlainFor "crontab" s := ⟨fun _ => by decide, fun _ => by decide⟩
  rw [Text.tokenIs_eq_standsFree (by decide +kernel) (by decide +kernel), forbids_iff_occursIn, hp]
  exact occursIn_iff_hasOnward (by decide +kernel) hclear
    fun u v w hu _ => (derives_alt_start_cons hu).trans derives_editFlag

theorem netshStateOff_forbids_iff (hs : longS ∉ s) : netshStateOff.forbids s = true ↔
    s.HasOnward (Text.TokenIs "netsh") (Text.Spaced (Text.TokenIs "state") (Text.TokenIs "off")) := by
  have hp : netshStateOff.pattern = .headAndTail "netsh" (.boundary :: (letters "state" ++
      .plus (.one .blank) :: (letters "off" ++ [.boundary]))) := by
    decide +kernel
  have hclear : ∀ word : Text, 'k' ∉ word.map foldCase → Text.IsPlainFor word s :=
    fun word hk => ⟨fun h => absurd h hs, fun _ => hk⟩
  rw [Text.tokenIs_eq_standsFree (by decide +kernel) (by decide +kernel),
    Text.tokenIs_eq_standsFree (by decide +kernel) (by decide +kernel),
    Text.tokenIs_eq_standsFree (by decide +kernel) (by decide +kernel), forbids_iff_occursIn, hp]
  refine occursIn_iff_hasOnward (by decide +kernel) (hclear _ (by decide)) fun u v w _ e => ?_
  have hsub : v ⊆ s := fun c hc => by simp [e, hc]
  exact derives_spacedPair (by decide +kernel) (by decide +kernel)
    ((hclear _ (by decide)).of_subset hsub) ((hclear _ (by decide)).of_subset hsub)

end Rule

/-- **What the rules that reach over a line feed forbid.** One looks for a token and, before the next
line feed or at it, for white space with the option `-e` behind it, so that its alternative for the start
of the text makes no difference. In a text without the long s, the other one looks for a token and, before
the next line feed, for two tokens with nothing but white space between them. -/
theorem forbids_iff_across_lines (s : Text) :
    (Rule.crontabEdit.forbids s = true ↔ s.HasOnward (Text.TokenIs "crontab") Text.EditFlag) ∧
    Rule.crontabEdit.forbids s = Rule.crontabEditInside.forbids s ∧
    (longS ∉ s → (Rule.netshStateOff.forbids s = true ↔
      s.HasOnward (Text.TokenIs "netsh")
        (Text.Spaced (Text.TokenIs "state") (Text.TokenIs "off")))) := by
  refine ⟨Rule.crontabEdit_forbids_iff, ?_, Rule.netshStateOff_forbids_iff⟩
  rw [Bool.eq_iff_iff, Rule.crontabEdit_forbids_iff, Rule.crontabEditInside_forbids_iff]

/-- A line feed between the last two tokens, and a kelvin sign next to the first one. -/
theorem forbids_iff_across_lines_netsh :
    let s : Text := "\u212ANetsh\u2028set state\r\n\tOFF;"
    longS ∉ s ∧ s.HasOnward (Text.TokenIs "netsh")
      (Text.Spaced (Text.TokenIs "state") (Text.TokenIs "off")) := by
  intro s
  have hs : longS ∉ s := by decide +kernel
  obtain ⟨-, -, hnetsh⟩ := forbids_iff_across_lines s
  exact ⟨hs, (hnetsh hs).mp (by decide +kernel)⟩

example : Rule.crontabEdit.forbids "crontab\n-e" = true ∧
    Rule.crontabEdit.forbids "crontab\n -e" = false := by
  decide +kernel

end CommandVetting
