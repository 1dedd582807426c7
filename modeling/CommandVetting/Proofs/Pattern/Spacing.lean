import CommandVetting.Proofs.Pattern.Ends
import CommandVetting.Proofs.Pattern.Words
import CommandVetting.Proofs.Text.Spacing

/-!
# Patterns that do not count spacing

A class with white space takes one character of a run of spacing, and then the length of the run counts.
In a repetition of such a class it does not: the repetition takes the run as a whole if the patterns
around it start and end at no place inside a run. Which patterns are of this kind can be read off them.

* `Pattern.isRun`: the repetitions that take any spacing or none;
* `Pattern.endsOnSeam`, `Pattern.startsOnSeam`: the spans of the pattern end, or start, at a seam;
* `Pattern.isSteady`: all spacing is taken by repetitions, which stand between seams;
* **`Derives.respace`**: a steady pattern derives the same spans with other spacing;
* `Pattern.OccursBefore.respace`: so an occurrence is still there when the spacing of a text is changed.
-/

namespace CommandVetting

open Text (Respaced IsSeam)

namespace Pattern

/-- A repetition of a class that has all spacing or none. -/
def isRun (p : Pattern) : Bool :=
  [CharClass.anyInLine, .blank, .word].any fun k => p == .star (.one k) || p == .plus (.one k)

/-- Every span ends at a seam. -/
def endsOnSeam : Pattern → Bool
  | one k => k.avoidsPadding
  | seq p q => q.endsOnSeam || (q.lasts.all CharClass.avoidsPadding && p.endsOnSeam)
  | alt p q => p.endsOnSeam && q.endsOnSeam
  | boundary | start | stop => true
  | empty | star _ => false

/-- Every span starts at a seam. -/
def startsOnSeam : Pattern → Bool
  | one k => k.avoidsPadding
  | seq p q => p.startsOnSeam || (p.firsts.all CharClass.avoidsPadding && q.startsOnSeam)
  | alt p q => p.startsOnSeam && q.startsOnSeam
  | boundary | start | stop => true
  | empty | star _ => false

/-- Spacing is taken by repetitions only, and the parts of the pattern meet at seams. -/
def isSteady : Pattern → Bool
  | one k => k.avoidsPadding
  | seq p q => (p.seq q).isRun || (p.isSteady && q.isSteady && (p.endsOnSeam || q.startsOnSeam))
  | alt p q => p.isSteady && q.isSteady
  | star p => p.star.isRun
  | empty | boundary => true
  | start | stop => false

end Pattern

variable {p : Pattern} {u u' v v' w w' : Text}

/-! ## Seams -/

theorem CoveredBy.isSpacing_eq_false {ks : List CharClass} {c : Char} (h : CoveredBy ks c)
    (hk : ks.all CharClass.avoidsPadding = true) : isSpacing c = false :=
  isSpacing_of_not_isPadding (h.isPadding_eq_false hk)

/-- There is a word on one side of a boundary, and no spacing. -/
theorem isSeam_of_boundary (h : Derives .boundary u v w) : IsSeam u w := by
  obtain ⟨-, hne⟩ := derives_boundary.mp h
  intro c hc d hd hsp
  have hu : u.endsInWord = false := by
    rw [Text.endsInWord, Option.mem_def.mp hc]
    exact isAsciiWord_of_isSpacing hsp
  rw [← Bool.not_eq_true]
  intro hsp'
  have hw : w.startsInWord = false := by
    rw [Text.startsInWord, Option.mem_def.mp hd]
    exact isAsciiWord_of_isSpacing hsp'
  exact hne (hu.trans hw.symm)

theorem Derives.isSeam_right (h : Derives p u v w) (hp : p.endsOnSeam = true) : IsSeam (u ++ v) w := by
  induction h with
  | @one k u w c hc =>
    refine Text.isSeam_of_getLast? fun d hd => ?_
    obtain rfl : c = d := by simpa using hd
    exact isSpacing_of_not_isPadding (CharClass.isPadding_of_avoidsPadding hp hc)
  | @seq p q u v v' w left right ihl ihr =>
    rw [Pattern.endsOnSeam, Bool.or_eq_true, Bool.and_eq_true] at hp
    rw [← List.append_assoc]
    rcases hp with hp | ⟨hlasts, hp⟩
    · exact ihr hp
    · by_cases hv : v' = []
      · subst hv
        rw [List.append_nil]
        exact ihl hp
      · refine Text.isSeam_of_getLast? fun c hc => ?_
        rw [List.getLast?_append_of_ne_nil _ hv] at hc
        exact (right.exists_lasts c hc).isSpacing_eq_false hlasts
  | altLeft h ih =>
    rw [Pattern.endsOnSeam, Bool.and_eq_true] at hp
    exact ih hp.1
  | altRight h ih =>
    rw [Pattern.endsOnSeam, Bool.and_eq_true] at hp
    exact ih hp.2
  | @boundary u w hb =>
    rw [List.append_nil]
    exact isSeam_of_boundary (.boundary hb)
  | start => exact Text.isSeam_of_getLast? (by simp)
  | stop => exact Text.isSeam_of_head? (by simp)
  | empty | starNil | starCons => cases hp

theorem Derives.isSeam_left (h : Derives p u v w) (hp : p.startsOnSeam = true) : IsSeam u (v ++ w) := by
  induction h with
  | @one k u w c hc =>
    refine Text.isSeam_of_head? fun d hd => ?_
    obtain rfl : c = d := by simpa using hd
    exact isSpacing_of_not_isPadding (CharClass.isPadding_of_avoidsPadding hp hc)
  | @seq p q u v v' w left right ihl ihr =>
    rw [Pattern.startsOnSeam, Bool.or_eq_true, Bool.and_eq_true] at hp
    rw [List.append_assoc]
    rcases hp with hp | ⟨hfirsts, hp⟩
    · exact ihl hp
    · by_cases hv : v = []
      · subst hv
        rw [List.append_nil] at ihr
        exact ihr hp
      · refine Text.isSeam_of_head? fun c hc => ?_
        rw [List.head?_append_of_ne_nil _ hv] at hc
        exact (left.exists_firsts c hc).isSpacing_eq_false hfirsts
  | altLeft h ih =>
    rw [Pattern.startsOnSeam, Bool.and_eq_true] at hp
    exact ih hp.1
  | altRight h ih =>
    rw [Pattern.startsOnSeam, Bool.and_eq_true] at hp
    exact ih hp.2
  | @boundary u w hb => exact isSeam_of_boundary (.boundary hb)
  | start => exact Text.isSeam_of_getLast? (by simp)
  | stop => exact Text.isSeam_of_head? (by simp)
  | empty | starNil | starCons => cases hp

/-! ## Repetitions -/

/-- The class has all spacing or none. -/
def CharClass.IsUniform (k : CharClass) : Prop :=
  ∀ c d, isSpacing c = true → isSpacing d = true → k.contains c = k.contains d

theorem Pattern.exists_of_isRun (hp : p.isRun = true) :
    ∃ k : CharClass, k.IsUniform ∧ (p = .star (.one k) ∨ p = .plus (.one k)) := by
  obtain ⟨k, hk, h⟩ := List.any_eq_true.mp hp
  refine ⟨k, fun c d hc hd => ?_, by simpa using h⟩
  have hnewline : ∀ {c : Char}, isSpacing c = true → (c != '\n') = true :=
    fun hc => (Bool.and_eq_true_iff.mp hc).2
  simp only [List.mem_cons, List.not_mem_nil, or_false] at hk
  rcases hk with rfl | rfl | rfl
  · rw [CharClass.contains, CharClass.contains, hnewline hc, hnewline hd]
  · rw [CharClass.contains, CharClass.contains, isBlank_of_isSpacing hc, isBlank_of_isSpacing hd]
  · rw [CharClass.contains, CharClass.contains, isWord_of_isPadding (isPadding_of_isSpacing hc),
      isWord_of_isPadding (isPadding_of_isSpacing hd)]

theorem Derives.respace_of_isRun (hp : p.isRun = true) (h : Derives p u v w) (hv : Respaced v v') :
    Derives p u' v' w' := by
  obtain ⟨k, hk, rfl | rfl⟩ := Pattern.exists_of_isRun hp
  all_goals
    have hall : (∀ c ∈ v, k.contains c = true) → ∀ d ∈ v', k.contains d = true := by
      intro hv' d hd
      obtain ⟨c, hc, rfl | ⟨hsp, hsp'⟩⟩ := hv.exists_of_mem d hd
      · exact hv' c hc
      · rw [← hk c d hsp hsp']
        exact hv' c hc
  · exact derives_star_one.mpr (hall (derives_star_one.mp h))
  · obtain ⟨hne, h⟩ := derives_plus_one.mp h
    exact derives_plus_one.mpr ⟨mt hv.eq_nil_iff.mpr hne, hall h⟩

/-! ## Steady patterns -/

/-- **A steady pattern derives the same spans with other spacing.** The induction is on the pattern, since
a repetition has to be seen as a whole. -/
theorem Derives.respace (hp : p.isSteady = true) (h : Derives p u v w) (hv : Respaced v v')
    (hu : u.endsInWord = u'.endsInWord) (hw : w.startsInWord = w'.startsInWord) :
    Derives p u' v' w' := by
  induction p generalizing u u' v v' w w' with
  | empty =>
    cases h
    obtain rfl := hv.eq_nil_iff.mp rfl
    exact .empty
  | one k =>
    cases h with
    | @one _ _ _ c hc =>
      have hsp := isSpacing_of_not_isPadding (CharClass.isPadding_of_avoidsPadding hp hc)
      obtain rfl := hv.eq_of_no_spacing (by simpa using hsp)
      exact .one hc
  | seq p q ihp ihq =>
    rw [Pattern.isSteady, Bool.or_eq_true] at hp
    rcases hp with hp | hp
    · exact h.respace_of_isRun hp hv
    · simp only [Bool.and_eq_true, Bool.or_eq_true] at hp
      obtain ⟨⟨hp, hq⟩, hseam⟩ := hp
      cases h with
      | @seq _ _ _ v₁ v₂ _ left right =>
        have hcut : IsSeam (u ++ v₁) (v₂ ++ w) :=
          hseam.elim (fun h => left.isSeam_right h) fun h => right.isSeam_left h
        obtain ⟨v₁', v₂', rfl, hv₁, hv₂⟩ := hv.split hcut.of_append
        exact .seq (ihp hp left hv₁ hu (hv₂.startsInWord_append hw))
          (ihq hq right hv₂ (Respaced.endsInWord_append hu hv₁) hw)
  | alt p q ihp ihq =>
    rw [Pattern.isSteady, Bool.and_eq_true] at hp
    cases h with
    | altLeft h => exact .altLeft (ihp hp.1 h hv hu hw)
    | altRight h => exact .altRight (ihq hp.2 h hv hu hw)
  | star p => exact h.respace_of_isRun hp hv
  | boundary =>
    obtain ⟨rfl, hne⟩ := derives_boundary.mp h
    obtain rfl := hv.eq_nil_iff.mp rfl
    exact derives_boundary.mpr ⟨rfl, by rwa [← hu, ← hw]⟩
  | start | stop => cases hp

/-- **An occurrence of a steady pattern is still there when the spacing of a text is changed.** -/
theorem Pattern.OccursBefore.respace {K : Text → Prop} {s t : Text} (h : p.OccursBefore K s)
    (hp : p.isSteady = true) (hsolid : p.isSolid = true) (hst : Respaced s t)
    (hK : ∀ w w', Respaced w w' → K w → K w') : p.OccursBefore K t := by
  obtain ⟨u, v, w, rfl, hd, hw⟩ := h
  obtain ⟨⟨x, hx, hxp⟩, y, hy, hyp⟩ := hd.ends_of_isSolid hsolid
  have hne : v ≠ [] := by
    rintro rfl
    cases hx
  have hleft : IsSeam u (v ++ w) := by
    refine Text.isSeam_of_head? fun d hd => ?_
    rw [List.head?_append_of_ne_nil v hne, Option.mem_def.mp hx] at hd
    exact Option.some.inj hd ▸ isSpacing_of_not_isPadding hxp
  have hright : IsSeam v w := by
    refine Text.isSeam_of_getLast? fun c hc => ?_
    rw [Option.mem_def.mp hy] at hc
    exact Option.some.inj hc ▸ isSpacing_of_not_isPadding hyp
  rw [List.append_assoc] at hst
  obtain ⟨u', r, rfl, hu, hr⟩ := hst.split hleft
  obtain ⟨v', w', rfl, hv, hw'⟩ := hr.split hright
  exact ⟨u', v', w', by simp, hd.respace hp hv hu.endsInWord_eq hw'.startsInWord_eq, hK w w' hw' hw⟩

end CommandVetting
