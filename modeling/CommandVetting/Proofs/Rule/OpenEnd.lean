import CommandVetting.Proofs.Rule.Meaning
import CommandVetting.Proofs.Text.Tokens
import CommandVetting.Rule.Table

/-!
# The rule with an open end

The rule against making file systems asks for a stem and for a name that may go on behind it, up to the end
of an ASCII word. The name may be of any script and the end may not, but where the stem ends in an ASCII
letter there is always an end to be found: the name is taken as far as the ASCII word goes.

* `Text.IsMkfs`: the stem, up to case, with the kelvin sign for its second letter or without;
* **`exists_derives_openEnd`**: the open end takes something of every text;
* `Text.isMkfs_of_map_foldCase`: without the long s, a text that folds like the stem is the stem;
* **`mkfs_forbids_whatever_follows`**: the rule forbids the texts that have the stem at the start of a word.
-/

namespace CommandVetting

open Pattern (letters)

variable {t u v w : Text}

/-! ## The open end -/

/-- An item that may be missing, word characters of any script, and the end of an ASCII word. -/
def Pattern.openEnd (p : Pattern) : List Pattern := [.optional p, .star (.one .word), .boundary]

/-- **Behind an ASCII word character the open end takes something of every text**: the ASCII word
characters that follow. -/
theorem exists_derives_openEnd (p : Pattern) (hu : u.endsInWord = true) (t : Text) :
    ∃ v w, t = v ++ w ∧ Derives (.ofSeq p.openEnd) u v w := by
  obtain ⟨v, w, e, hv, hw⟩ := Text.exists_word_append t
  have hend : (u ++ v).endsInWord = true := by
    by_cases hne : v = []
    · rwa [hne, List.append_nil]
    · exact Text.endsInWord_append (Text.IsOneWord.mk hne hv).endsInWord
  refine ⟨v, w, e, derives_ofSeq_cons.mpr (.seq (v := []) (.altRight .empty) ?_)⟩
  rw [List.append_nil, ← List.singleton_append, derives_concat_boundary]
  refine ⟨?_, ?_⟩
  · exact derives_star_one.mpr fun c hc => isWord_of_isAsciiWord (List.all_eq_true.mp hv c hc)
  · exact derives_boundary.mpr ⟨rfl, by rw [hend, hw]; simp⟩

/-! ## The stem -/

/-- The letters `mkfs`, up to case; the kelvin sign may stand for the second one. -/
def Text.IsMkfs (v : Text) : Prop := v.EqUpToCase "mkfs" ∨ v.EqUpToCase ['m', kelvinSign, 'f', 's']

namespace Text

theorem IsMkfs.map_foldCase (h : v.IsMkfs) : v.map foldCase = ['m', 'k', 'f', 's'] :=
  h.elim (·.map_foldCase) (·.map_foldCase)

theorem IsMkfs.startsInWord (h : v.IsMkfs) : v.startsInWord = true :=
  h.elim (·.startsInWord) (·.startsInWord)

theorem IsMkfs.endsInWord (h : v.IsMkfs) : v.endsInWord = true :=
  h.elim (·.endsInWord) (·.endsInWord)

/-- **Without the long s the letters of the rule are the stem.** -/
theorem isMkfs_of_map_foldCase (hs : longS ∉ v) (h : v.map foldCase = ['m', 'k', 'f', 's']) :
    v.IsMkfs := by
  rw [← List.singleton_append] at h
  obtain ⟨a, r, rfl, ha, hr⟩ := List.map_eq_append_iff.mp h
  obtain ⟨c, b, rfl, hc, hb⟩ := List.map_eq_cons_iff.mp hr
  -- The kelvin sign stands for no other letter of the stem.
  have hm : IsPlain ['m'] := ⟨by decide, by decide⟩
  have hfs : IsPlain ['f', 's'] := ⟨by decide, by decide⟩
  have ha' : EqUpToCase a ['m'] := (map_foldCase_eq_iff hm
    ⟨fun hl => absurd (List.mem_append_left _ hl) hs, fun _ => by decide⟩).mp ha
  have hb' : EqUpToCase b ['f', 's'] := (map_foldCase_eq_iff hfs
    ⟨fun hl => absurd (List.mem_append_right _ (.tail _ hl)) hs, fun _ => by decide⟩).mp hb
  have hstem : ∀ d : Char, c.toLower = d.toLower → EqUpToCase (a ++ c :: b) ['m', d, 'f', 's'] := by
    intro d hd
    rw [EqUpToCase, List.map_append, List.map_cons, ha', hb', hd]
    rfl
  by_cases hk : c = kelvinSign
  · exact .inr (hstem kelvinSign (congrArg _ hk))
  · have hlong : c ≠ longS := by
      rintro rfl
      exact hs (by simp)
    rw [foldCase_eq_toLower hlong hk] at hc
    exact .inl (hstem 'k' hc)

end Text

/-! ## The rule -/

namespace Rule

theorem mkfs_pattern : mkfs.pattern = .ofSeq (.boundary :: (letters "mkfs" ++
    Pattern.openEnd (.alt (.one (.literal '.')) (.one (.literal '_'))))) := by
  decide +kernel

/-- **Where a word starts with the stem, the rule derives a span**, whatever follows. -/
theorem exists_derives_mkfs (hu : u.endsInWord = false) (hv : v.IsMkfs) (t : Text) :
    ∃ x w, t = x ++ w ∧ Derives mkfs.pattern u (v ++ x) w := by
  obtain ⟨x, w, rfl, hx⟩ := exists_derives_openEnd (.alt (.one (.literal '.')) (.one (.literal '_')))
    (Text.endsInWord_append (u := u) hv.endsInWord) t
  refine ⟨x, w, rfl, ?_⟩
  rw [mkfs_pattern, derives_boundary_cons, List.append_assoc]
  refine ⟨(derives_boundary_append hv.startsInWord).mpr hu, derives_ofSeq_append.mpr ⟨v, x, rfl, ?_, hx⟩⟩
  exact derives_letters.mpr hv.map_foldCase

theorem exists_isMkfs_of_derives (hs : longS ∉ v) (h : Derives mkfs.pattern u v w) :
    ∃ x y, v = x ++ y ∧ x.IsMkfs ∧ u.endsInWord = false := by
  rw [mkfs_pattern, derives_boundary_cons] at h
  obtain ⟨hb, h⟩ := h
  obtain ⟨x, y, rfl, hx, -⟩ := derives_ofSeq_append.mp h
  have hstem : x.IsMkfs := Text.isMkfs_of_map_foldCase (fun hm => hs (List.mem_append_left _ hm))
    (derives_letters.mp hx)
  rw [List.append_assoc] at hb
  exact ⟨x, y, rfl, hstem, (derives_boundary_append hstem.startsInWord).mp hb⟩

end Rule

/-- **The rule against making file systems forbids every variant.** It forbids each text that has the stem at
the start of a word, whatever follows the stem; and of the texts without the long s it forbids no others. -/
theorem mkfs_forbids_whatever_follows :
    (∀ u v w : Text, u.endsInWord = false → v.IsMkfs → Rule.mkfs.forbids (u ++ v ++ w) = true) ∧
    ∀ s : Text, longS ∉ s → Rule.mkfs.forbids s = true →
      ∃ u v w, s = u ++ v ++ w ∧ u.endsInWord = false ∧ v.IsMkfs := by
  refine ⟨fun u v w hu hv => ?_, fun s hs h => ?_⟩
  · obtain ⟨x, y, rfl, hd⟩ := Rule.exists_derives_mkfs hu hv w
    exact Rule.forbids_iff_occursIn.mpr ⟨u, v ++ x, y, by simp, hd⟩
  · obtain ⟨u, v, w, rfl, hd⟩ := Rule.forbids_iff_occursIn.mp h
    obtain ⟨x, y, rfl, hx, hu⟩ := Rule.exists_isMkfs_of_derives (fun hm => hs (by simp [hm])) hd
    exact ⟨u, x, y ++ w, by simp, hu, hx⟩

/-- A kelvin sign in the stem, and letters of other scripts on both sides of it; and a text that is forbidden
for an occurrence of the stem in it. -/
theorem mkfs_forbids_whatever_follows_mixed :
    Rule.mkfs.forbids ("sudo \u0444" ++ "M\u212AfS" ++ "\u0444_9\u00E9x.ext4") = true ∧
      ∃ u v w : Text, "amkfs/MKFS_\u0444" = u ++ v ++ w ∧ u.endsInWord = false ∧ v.IsMkfs :=
  ⟨mkfs_forbids_whatever_follows.1 "sudo \u0444" "M\u212AfS" "\u0444_9\u00E9x.ext4" (by decide)
      (.inr rfl),
    mkfs_forbids_whatever_follows.2 "amkfs/MKFS_\u0444" (by decide +kernel) (by decide +kernel)⟩

/-- With the long s for its last letter the stem does not end in an ASCII word. -/
example : Rule.mkfs.forbids "mkf\u017F" = false ∧ Rule.mkfs.forbids "mkf\u017Fx" = true := by
  decide +kernel

end CommandVetting
