import CommandVetting.Proofs.Audit.Lines
import CommandVetting.Proofs.Pattern.Words

/-!
# Rules with a head and a tail

Six rules look for a word and, further on in the same line, for something else. Any head in a line may
go with any tail behind it; what stands between them does not matter, and carriage returns and the
other line ends of Unicode may be there too.

* `Rule.tokenPairs`: the rules whose head and tail are both tokens;
* `occursIn_iff_hasOnward`, `occursIn_iff_hasInOrder`: the pattern of a head and a tail, in a text and in
  one line;
* `Rule.forbids_iff_exists_line_hasInOrder`: a rule with such a pattern;
* **`forbids_iff_head_and_tail`**: what the six rules forbid, told without patterns.
-/

namespace CommandVetting

open Pattern (letters freeWord)

/-- The pattern of a word between boundaries and, further on in the line, a row of patterns. -/
def Pattern.headAndTail (head : Text) (tail : List Pattern) : Pattern :=
  .ofSeq (freeWord head ++ .star (.one .anyInLine) :: tail)

variable {s t u v w head : Text} {tail : List Pattern} {second : Text → Text → Text → Prop}

/-- **A head and a tail occur in a text** when the head stands free in it and the tail can be derived
further on, before a line feed comes between them. -/
theorem occursIn_iff_hasOnward (hhead : head.isKeyword = true) (ht : Text.IsPlainFor head t)
    (hsecond : ∀ u v w, u ≠ [] → t = u ++ v ++ w → (Derives (.ofSeq tail) u v w ↔ second u v w)) :
    (Pattern.headAndTail head tail).OccursIn t ↔ t.HasOnward (Text.StandsFree head) second := by
  have hne : ∀ {u v w}, Text.StandsFree head u v w → v ≠ [] := by
    rintro u v w h rfl
    obtain rfl : head = [] := List.map_eq_nil_iff.mp h.reads.symm
    cases hhead
  constructor
  · rintro ⟨u, x, w, rfl, h⟩
    obtain ⟨v, y, rfl, hfirst, h⟩ := derives_ofSeq_append.mp h
    cases derives_ofSeq_cons.mp h with
    | @seq _ _ _ m v' _ hm htail =>
      have hv : Text.IsPlainFor head v := ht.of_subset fun c hc => by simp [hc]
      have hfree := (derives_freeWord hhead hv).mp hfirst
      have hline : '\n' ∉ m := fun hn => bne_iff_ne.mp (derives_star_one.mp hm '\n' hn) rfl
      rw [List.append_assoc] at hfree
      exact ⟨u, v, m, v', w, by simp, hline, by rwa [List.append_assoc],
        (hsecond _ _ _ (by simp [hne hfree]) (by simp)).mp htail⟩
  · rintro ⟨u, v, m, v', w, rfl, hline, hfirst, h⟩
    have hv : Text.IsPlainFor head v := ht.of_subset fun c hc => by simp [hc]
    -- Nothing in the line ends what may stand between the head and the tail.
    have hm : Derives (.star (.one .anyInLine)) (u ++ v) m (v' ++ w) := by
      refine derives_star_one.mpr fun c hc => bne_iff_ne.mpr ?_
      rintro rfl
      exact hline hc
    have htail := (hsecond _ _ _ (by simp [hne hfirst]) (by simp)).mpr h
    refine ⟨u, v ++ (m ++ v'), w, by simp, derives_ofSeq_append.mpr ⟨v, m ++ v', rfl, ?_, ?_⟩⟩
    · exact (derives_freeWord hhead hv).mpr hfirst
    · exact derives_ofSeq_cons.mpr (.seq hm htail)

/-- A head and a tail occur in a line when the head stands free in it and the tail can be derived further
on. -/
theorem occursIn_iff_hasInOrder (hhead : head.isKeyword = true) (ht : t.IsPlain) (hline : '\n' ∉ t)
    (hsecond : ∀ u v w, v.IsPlain → (Derives (.ofSeq tail) u v w ↔ second u v w)) :
    (Pattern.headAndTail head tail).OccursIn t ↔ t.HasInOrder (Text.StandsFree head) second := by
  rw [← Text.hasOnward_iff_hasInOrder hline]
  refine occursIn_iff_hasOnward hhead ht.isPlainFor fun u v w _ e => hsecond u v w ?_
  exact ht.of_subset fun c hc => by simp [e, hc]

namespace Rule

/-- **A rule with a head and a tail forbids a text** when a line of it has the head and, further on, the
tail. -/
theorem forbids_iff_exists_line_hasInOrder {r : Rule} (hr : r ∈ withinLine)
    (hp : r.pattern = .headAndTail head tail) (hhead : head.isKeyword = true) (hs : s.IsPlain)
    (hsecond : ∀ u v w, v.IsPlain → (Derives (.ofSeq tail) u v w ↔ second u v w)) :
    r.forbids s = true ↔ ∃ l ∈ s.splitOn '\n', Text.HasInOrder l (Text.StandsFree head) second := by
  rw [forbids_iff_exists_line hr]
  refine exists_congr fun l => and_congr_right fun hl => ?_
  obtain ⟨hline, a, b, rfl, -⟩ := mem_splitOn_iff.mp hl
  have hplain : Text.IsPlain l := hs.of_subset fun c hc => by simp [hc]
  rw [forbids_iff_occursIn, hp, occursIn_iff_hasInOrder hhead hplain hline hsecond]

/-- The rules that ask for two tokens, the first one before the second. -/
def tokenPairs : List (Rule × Text × Text) :=
  [(schtasksCreate, "schtasks", "create"), (regAdd, "reg", "add"), (scCreate, "sc", "create"),
   (systemctlEnable, "systemctl", "enable")]

theorem forbids_iff_tokenPair {r : Rule} {first second : Text} (h : (r, first, second) ∈ tokenPairs)
    (hs : s.IsPlain) : r.forbids s = true ↔
      ∃ l ∈ s.splitOn '\n', Text.HasInOrder l (Text.TokenIs first) (Text.TokenIs second) := by
  have hline : ∀ x ∈ tokenPairs, x.1 ∈ withinLine := by simp [tokenPairs, withinLine]
  have hpattern : ∀ x ∈ tokenPairs, x.1.pattern = .headAndTail x.2.1 (freeWord x.2.2) ∧
      x.2.1.isKeyword = true ∧ x.2.1.all isAsciiWord = true ∧
      x.2.2.isKeyword = true ∧ x.2.2.all isAsciiWord = true := by
    decide +kernel
  obtain ⟨hp, hfirst, hfirst', hsecond, hsecond'⟩ := hpattern _ h
  rw [Text.tokenIs_eq_standsFree hfirst hfirst', Text.tokenIs_eq_standsFree hsecond hsecond']
  exact forbids_iff_exists_line_hasInOrder (hline _ h) hp hfirst hs
    fun u v w hv => derives_freeWord hsecond hv.isPlainFor

theorem deleteEvtx_forbids_iff (hs : s.IsPlain) : deleteEvtx.forbids s = true ↔
    ∃ l ∈ s.splitOn '\n', Text.HasInOrder l (Text.TokenIs "del") (Text.Reads r"\winevt\logs") := by
  have hp : deleteEvtx.pattern = .headAndTail "del" (letters r"\winevt\logs") := by decide +kernel
  have htail : Text.IsPlain r"\winevt\logs" := ⟨by decide, by decide⟩
  rw [Text.tokenIs_eq_standsFree (by decide +kernel) (by decide +kernel)]
  exact forbids_iff_exists_line_hasInOrder (by simp [withinLine]) hp (by decide +kernel) hs
    fun u v w hv => derives_letters_iff_reads htail hv.isPlainFor

theorem defenderDisable_forbids_iff (hs : s.IsPlain) : defenderDisable.forbids s = true ↔
    ∃ l ∈ s.splitOn '\n',
      Text.HasInOrder l (Text.StandsFree "Set-MpPreference") (Text.Reads "disable") := by
  have hp : defenderDisable.pattern = .headAndTail "Set-MpPreference" (letters "Disable") := by
    decide +kernel
  have htail : Text.IsPlain "Disable" := ⟨by decide, by decide⟩
  have hcase : Text.Reads "disable" = Text.Reads "Disable" := rfl
  rw [hcase]
  exact forbids_iff_exists_line_hasInOrder (by simp [withinLine]) hp (by decide +kernel) hs
    fun u v w hv => derives_letters_iff_reads htail hv.isPlainFor

end Rule

/-- **What the rules with a head and a tail forbid.** In a text without the two signs that fold to
ASCII letters, four rules look for two tokens in this order in one line, one for a token and a path
behind it, and one for a name that stands free and a word behind it, which may be part of another
one. -/
theorem forbids_iff_head_and_tail {s : Text} (hs : longS ∉ s) (hk : kelvinSign ∉ s) :
    (∀ r first second, (r, first, second) ∈ Rule.tokenPairs → (r.forbids s = true ↔
      ∃ l ∈ s.splitOn '\n', Text.HasInOrder l (Text.TokenIs first) (Text.TokenIs second))) ∧
    (Rule.deleteEvtx.forbids s = true ↔ ∃ l ∈ s.splitOn '\n',
      Text.HasInOrder l (Text.TokenIs "del") (Text.Reads r"\winevt\logs")) ∧
    (Rule.defenderDisable.forbids s = true ↔ ∃ l ∈ s.splitOn '\n',
      Text.HasInOrder l (Text.StandsFree "Set-MpPreference") (Text.Reads "disable")) :=
  ⟨fun _ _ _ h => Rule.forbids_iff_tokenPair h ⟨hs, hk⟩, Rule.deleteEvtx_forbids_iff ⟨hs, hk⟩,
    Rule.defenderDisable_forbids_iff ⟨hs, hk⟩⟩

/-- The first line has the two tokens in the wrong order, and the first head of the second line is not
a token. -/
theorem forbids_iff_head_and_tail_schtasks :
    let s : Text := "create schtasks\nschtasks_x create; SchTasks\u2028\r-x CREATE-y"
    longS ∉ s ∧ kelvinSign ∉ s ∧
      (∃ l ∈ s.splitOn '\n', Text.HasInOrder l (Text.TokenIs "schtasks") (Text.TokenIs "create")) ∧
      ¬ ∃ l ∈ s.splitOn '\n', Text.HasInOrder l (Text.TokenIs "sc") (Text.TokenIs "create") := by
  intro s
  have hs : longS ∉ s := by decide +kernel
  have hk : kelvinSign ∉ s := by decide +kernel
  obtain ⟨hpairs, -⟩ := forbids_iff_head_and_tail hs hk
  have hschtasks := hpairs Rule.schtasksCreate "schtasks" "create" (by simp [Rule.tokenPairs])
  have hsc := hpairs Rule.scCreate "sc" "create" (by simp [Rule.tokenPairs])
  have hforbidden : Rule.schtasksCreate.forbids s = true := by decide +kernel
  have hallowed : Rule.scCreate.forbids s ≠ true := by decide +kernel
  exact ⟨hs, hk, hschtasks.mp hforbidden, fun h => hallowed (hsc.mpr h)⟩

end CommandVetting
