import Mathlib.Data.List.SplitBy
import Mathlib.Data.List.Infix
import CommandVetting.Proofs.Pattern.Words

/-!
# Runs and tokens

A text is cut wherever an ASCII word starts or ends. The pieces are its runs, and those that consist of
ASCII word characters are its tokens. Where a part of a text begins and ends between two runs, its runs
are among those of the text.

* `Text.runs`, `Text.tokens`: the runs of a text, and its tokens;
* `Text.IsCut u w`: a text is cut between `u` and `w`;
* `Text.runs_eq_append_iff`, **`Text.infix_runs_iff`**: consecutive runs;
  `Text.all_isAsciiWord_of_neighbours`: neighbouring runs are of different kinds;
* `Text.IsOneWord`: a text that can be a token; `Text.HasToken`, `Text.HasHyphenated`: a word among the
  tokens, and two words with exactly a hyphen between them;
* **`Text.mem_tokens_iff`: the tokens are the maximal runs of ASCII word characters**;
* `Text.outline`: the tokens in small letters, and between them the hyphens that stand alone;
  `Text.hasToken_iff_mem_outline`, **`Text.hasHyphenated_iff_infix_outline`**: what the outline tells.
-/

namespace CommandVetting.Text

/-- Both characters are ASCII word characters, or neither is. -/
def isSameKind (c d : Char) : Bool := isAsciiWord c == isAsciiWord d

/-- The pieces of the text between the places where ASCII words start and end. -/
def runs (t : Text) : List Text := t.splitBy isSameKind

/-- The maximal runs of ASCII word characters. -/
def tokens (t : Text) : List Text := t.runs.filter (·.all isAsciiWord)

/-- A word starts or ends between the two texts, or one of them is empty. -/
def IsCut (u w : Text) : Prop := ∀ c ∈ u.getLast?, ∀ d ∈ w.head?, isSameKind c d = false

/-- The text is not empty and has ASCII word characters only. -/
structure IsOneWord (v : Text) : Prop where
  ne_nil : v ≠ []
  all_isAsciiWord : v.all isAsciiWord = true

/-- A token of the text is the word, up to case. -/
def HasToken (t word : Text) : Prop := ∃ v ∈ t.tokens, v.EqUpToCase word

/-- Two consecutive tokens of the text are the two words, up to case, and exactly a hyphen stands between
them. -/
def HasHyphenated (t first second : Text) : Prop :=
  ∃ v v' : Text, [v, ['-'], v'] <:+: t.runs ∧ v.EqUpToCase first ∧ v'.EqUpToCase second

variable {r t u v v' w x word first second : Text}

/-! ## Cuts -/

theorem isCut_append_iff_left (hv : v.startsInWord = true) : IsCut u (v ++ w) ↔ u.endsInWord = false := by
  cases v with
  | nil => cases hv
  | cons d v =>
    have hd : isAsciiWord d = true := hv
    simp only [IsCut, List.cons_append, List.head?_cons, Option.mem_def, Option.some.injEq, forall_eq',
      isSameKind, hd]
    constructor
    · exact fun h => endsInWord_eq_false fun c hc => by simpa using h c hc
    · intro h c hc
      rw [endsInWord, hc] at h
      simpa using h

theorem isCut_append_iff_right (hv : v.endsInWord = true) : IsCut (u ++ v) w ↔ w.startsInWord = false := by
  rcases List.eq_nil_or_concat' v with rfl | ⟨v, c, rfl⟩
  · cases hv
  · have hc : isAsciiWord c = true := by simpa [endsInWord] using hv
    rw [← List.append_assoc]
    simp only [IsCut, List.getLast?_concat, Option.mem_def, Option.some.injEq, forall_eq', isSameKind, hc]
    constructor
    · exact fun h => startsInWord_eq_false fun d hd => by simpa using h d hd
    · intro h d hd
      rw [startsInWord, hd] at h
      simpa using h

/-! ## Runs -/

theorem runs_append (h : IsCut u w) : (u ++ w).runs = u.runs ++ w.runs := List.splitBy_append h

theorem flatten_runs (t : Text) : t.runs.flatten = t := List.flatten_splitBy _ t

/-- **Between two runs a text is cut**, and its parts have the runs on either side. -/
theorem runs_eq_append_iff {ps qs : List Text} : t.runs = ps ++ qs ↔
    ∃ u w, t = u ++ w ∧ IsCut u w ∧ u.runs = ps ∧ w.runs = qs := by
  constructor
  · intro h
    obtain ⟨e, hnil, hkind, hchain⟩ := List.splitBy_eq_iff.mp h
    obtain ⟨hps, hqs, hcut⟩ := List.isChain_append.mp hchain
    rw [List.mem_append, not_or] at hnil
    refine ⟨ps.flatten, qs.flatten, by rw [e, List.flatten_append], fun c hc d hd => ?_,
      List.splitBy_flatten hnil.1 (fun p hp => hkind p (List.mem_append_left _ hp)) hps,
      List.splitBy_flatten hnil.2 (fun q hq => hkind q (List.mem_append_right _ hq)) hqs⟩
    have hpne : ps ≠ [] := by rintro rfl; cases hc
    have hqne : qs ≠ [] := by rintro rfl; cases hd
    obtain ⟨hp, hq, hdiff⟩ :=
      hcut _ (List.getLast_mem_getLast? hpne) _ (List.head_mem_head? hqne)
    rwa [List.getLast_getLast_eq_getLast_flatten, List.getLast_of_mem_getLast? hc,
      List.head_head_eq_head_flatten, List.head_of_mem_head? hd] at hdiff
  · rintro ⟨u, w, rfl, hcut, rfl, rfl⟩
    exact runs_append hcut

/-- **Consecutive runs of a text are the runs of a part of it** that is cut off on both sides. -/
theorem infix_runs_iff {l : List Text} : l <:+: t.runs ↔
    ∃ u v w, t = u ++ v ++ w ∧ IsCut u (v ++ w) ∧ IsCut (u ++ v) w ∧ v.runs = l := by
  constructor
  · rintro ⟨ps, qs, e⟩
    obtain ⟨x, w, rfl, hright, hx, -⟩ := runs_eq_append_iff.mp e.symm
    obtain ⟨u, v, rfl, hleft, -, hv⟩ := runs_eq_append_iff.mp hx
    refine ⟨u, v, w, rfl, ?_, hright, hv⟩
    cases v with
    | nil => rwa [List.append_nil] at hright
    | cons d v => exact hleft
  · rintro ⟨u, v, w, rfl, hleft, hright, rfl⟩
    have hcut : IsCut u v := fun c hc d hd => hleft c hc d <| by
      rw [List.head?_append, Option.mem_def.mp hd]
      rfl
    rw [runs_append hright, runs_append hcut]
    exact List.infix_append _ _ _

theorem isSameKind_iff {c d : Char} : isSameKind c d = true ↔ isAsciiWord c = isAsciiWord d := beq_iff_eq

instance : IsTrans Char fun c d => isSameKind c d = true :=
  ⟨fun _ _ _ h h' => isSameKind_iff.mpr ((isSameKind_iff.mp h).trans (isSameKind_iff.mp h'))⟩

instance : Std.Symm fun c d => isSameKind c d = true :=
  ⟨fun _ _ h => isSameKind_iff.mpr (isSameKind_iff.mp h).symm⟩

/-- A run is of one kind throughout. -/
theorem all_isAsciiWord_of_mem_runs (h : r ∈ t.runs) {c : Char} (hc : c ∈ r) :
    r.all isAsciiWord = isAsciiWord c := by
  have hpair := List.isChain_iff_pairwise.mp (List.isChain_of_mem_splitBy h)
  have hsame : ∀ c ∈ r, ∀ d ∈ r, isSameKind c d = true := fun c hc d hd =>
    hpair.forall_of_forall (fun _ _ => isSameKind_iff.mpr rfl) hc hd
  rw [Bool.eq_iff_iff, List.all_eq_true]
  exact ⟨fun hall => hall c hc, fun hword d hd => (isSameKind_iff.mp (hsame c hc d hd)).symm.trans hword⟩

/-- **Neighbouring runs are of different kinds.** -/
theorem all_isAsciiWord_of_neighbours {r' : Text} (h : [r, r'] <:+: t.runs) :
    r.all isAsciiWord = !r'.all isAsciiWord := by
  have hmem : r ∈ t.runs := h.subset (by simp)
  have hmem' : r' ∈ t.runs := h.subset (by simp)
  obtain ⟨ps, qs, e⟩ := h
  rw [List.append_assoc] at e
  obtain ⟨hr, hr', hdiff⟩ := List.isChain_iff_forall_rel_of_append_cons_cons.mp
    (List.isChain_getLast_head_splitBy isSameKind t) e.symm
  rw [all_isAsciiWord_of_mem_runs hmem (List.getLast_mem hr),
    all_isAsciiWord_of_mem_runs hmem' (List.head_mem hr')]
  exact Bool.eq_not.mpr (beq_eq_false_iff_ne.mp hdiff)

/-! ## Tokens -/

namespace IsOneWord

theorem startsInWord (hv : v.IsOneWord) : v.startsInWord = true := by
  obtain ⟨hne, hall⟩ := hv
  cases v with
  | nil => exact absurd rfl hne
  | cons c v => exact List.all_eq_true.mp hall c List.mem_cons_self

theorem endsInWord (hv : v.IsOneWord) : v.endsInWord = true := by
  rw [Text.endsInWord, List.getLast?_eq_some_getLast hv.ne_nil]
  exact List.all_eq_true.mp hv.all_isAsciiWord _ (List.getLast_mem hv.ne_nil)

theorem of_eqUpToCase (hword : word.IsOneWord) (h : v.EqUpToCase word) : v.IsOneWord := by
  refine ⟨?_, h.all_isAsciiWord.trans hword.all_isAsciiWord⟩
  rintro rfl
  exact hword.ne_nil (List.map_eq_nil_iff.mp h.symm)

/-- Within one word a text is not cut. -/
theorem runs_eq (hv : v.IsOneWord) : v.runs = [v] := by
  have hall := List.all_eq_true.mp hv.all_isAsciiWord
  refine List.splitBy_of_isChain hv.ne_nil (List.pairwise_of_forall_mem_list fun c hc d hd => ?_).isChain
  rw [isSameKind, hall c hc, hall d hd]
  rfl

end IsOneWord

/-- The ASCII word characters at the start of a text, and what follows them. -/
theorem exists_word_append (t : Text) : ∃ v w, t = v ++ w ∧ v.all isAsciiWord = true ∧
    w.startsInWord = false :=
  ⟨t.takeWhile isAsciiWord, t.dropWhile isAsciiWord, List.takeWhile_append_dropWhile.symm,
    List.all_takeWhile, startsInWord_eq_false head?_dropWhile⟩

theorem isToken_iff : IsToken u v w ↔ v.IsOneWord ∧ IsCut u (v ++ w) ∧ IsCut (u ++ v) w := by
  constructor
  · rintro ⟨hne, hall, hleft, hright⟩
    have hv : v.IsOneWord := ⟨hne, hall⟩
    exact ⟨hv, (isCut_append_iff_left hv.startsInWord).mpr hleft,
      (isCut_append_iff_right hv.endsInWord).mpr hright⟩
  · rintro ⟨hv, hleft, hright⟩
    exact ⟨hv.ne_nil, hv.all_isAsciiWord, (isCut_append_iff_left hv.startsInWord).mp hleft,
      (isCut_append_iff_right hv.endsInWord).mp hright⟩

/-- **The tokens are the maximal runs of ASCII word characters.** -/
theorem mem_tokens_iff : v ∈ t.tokens ↔ ∃ u w, t = u ++ v ++ w ∧ IsToken u v w := by
  rw [tokens, List.mem_filter, ← List.singleton_infix_iff, infix_runs_iff]
  constructor
  · rintro ⟨⟨u, x, w, rfl, hleft, hright, hruns⟩, hall⟩
    have hmem : v ∈ x.runs := by
      rw [hruns]
      exact List.mem_singleton_self v
    obtain rfl : x = v := by rw [← flatten_runs x, hruns, List.flatten_singleton]
    exact ⟨u, w, rfl, isToken_iff.mpr ⟨⟨List.ne_nil_of_mem_splitBy hmem, hall⟩, hleft, hright⟩⟩
  · rintro ⟨u, w, rfl, h⟩
    obtain ⟨hv, hleft, hright⟩ := isToken_iff.mp h
    exact ⟨⟨u, v, w, rfl, hleft, hright, hv.runs_eq⟩, hv.all_isAsciiWord⟩

/-- Two words with a hyphen between them are three runs. -/
theorem runs_hyphenated (hv : v.IsOneWord) (hv' : v'.IsOneWord) :
    (v ++ '-' :: v').runs = [v, ['-'], v'] := by
  have hbefore : IsCut v ('-' :: v') := (isCut_append_iff_right (u := []) hv.endsInWord).mpr rfl
  have hbehind : IsCut ['-'] v' := by
    rw [← List.append_nil v']
    exact (isCut_append_iff_left hv'.startsInWord).mpr rfl
  have htail : runs ('-' :: v') = [['-'], v'] := by
    rw [← List.singleton_append, runs_append hbehind, hv'.runs_eq]
    rfl
  rw [runs_append hbefore, hv.runs_eq, htail]
  rfl

/-- **Two tokens with exactly a hyphen between them**, told without runs. -/
theorem infix_hyphenated_iff (hv : v.IsOneWord) (hv' : v'.IsOneWord) : [v, ['-'], v'] <:+: t.runs ↔
    ∃ u w, t = u ++ (v ++ '-' :: v') ++ w ∧ u.endsInWord = false ∧ w.startsInWord = false := by
  have hstart : (v ++ '-' :: v').startsInWord = true := startsInWord_append hv.startsInWord
  have hend : (v ++ '-' :: v').endsInWord = true := by
    rw [List.append_cons]
    exact endsInWord_append hv'.endsInWord
  rw [infix_runs_iff]
  constructor
  · rintro ⟨u, x, w, rfl, hleft, hright, hruns⟩
    obtain rfl : x = v ++ '-' :: v' := by rw [← flatten_runs x, hruns]; simp
    exact ⟨u, w, rfl, (isCut_append_iff_left hstart).mp hleft, (isCut_append_iff_right hend).mp hright⟩
  · rintro ⟨u, w, rfl, hleft, hright⟩
    exact ⟨u, _, w, rfl, (isCut_append_iff_left hstart).mpr hleft,
      (isCut_append_iff_right hend).mpr hright, runs_hyphenated hv hv'⟩

theorem toLower_eq_hyphen_iff {c : Char} : c.toLower = '-' ↔ c = '-' :=
  toLower_cases (P := fun c d => d = '-' ↔ c = '-') (by decide) (fun _ _ => .rfl) c

theorem eqUpToCase_hyphenated_iff : x.EqUpToCase (first ++ '-' :: second) ↔
    ∃ v v' : Text, x = v ++ '-' :: v' ∧ v.EqUpToCase first ∧ v'.EqUpToCase second := by
  rw [EqUpToCase, List.map_append, List.map_cons]
  constructor
  · intro h
    obtain ⟨v, y, rfl, hv, hy⟩ := List.map_eq_append_iff.mp h
    obtain ⟨c, v', rfl, hc, hv'⟩ := List.map_eq_cons_iff.mp hy
    obtain rfl : c = '-' := toLower_eq_hyphen_iff.mp hc
    exact ⟨v, v', rfl, hv, hv'⟩
  · rintro ⟨v, v', rfl, hv, hv'⟩
    rw [List.map_append, List.map_cons, hv, hv']

/-- **Two words with a hyphen stand between tokens**, told without runs. -/
theorem hasHyphenated_iff (hfirst : first.IsOneWord) (hsecond : second.IsOneWord) :
    t.HasHyphenated first second ↔ ∃ u x w, t = u ++ x ++ w ∧ StandsFree (first ++ '-' :: second) u x w := by
  constructor
  · rintro ⟨v, v', hruns, hv, hv'⟩
    obtain ⟨u, w, e, hleft, hright⟩ :=
      (infix_hyphenated_iff (hfirst.of_eqUpToCase hv) (hsecond.of_eqUpToCase hv')).mp hruns
    exact ⟨u, _, w, e, eqUpToCase_hyphenated_iff.mpr ⟨v, v', rfl, hv, hv'⟩, hleft, hright⟩
  · rintro ⟨u, x, w, e, hreads, hleft, hright⟩
    obtain ⟨v, v', rfl, hv, hv'⟩ := eqUpToCase_hyphenated_iff.mp hreads
    exact ⟨v, v', (infix_hyphenated_iff (hfirst.of_eqUpToCase hv) (hsecond.of_eqUpToCase hv')).mpr
      ⟨u, w, e, hleft, hright⟩, hv, hv'⟩

/-! ## Outlines -/

/-- A token in small letters, and a hyphen that stands alone. Nothing is told of any other run. -/
def outlineOfRun? (r : Text) : Option Text :=
  if r.all isAsciiWord then some (r.map Char.toLower) else if r = ['-'] then some r else none

/-- The tokens of the text in small letters, and between them the hyphens that stand alone. -/
def outline (t : Text) : List Text := t.runs.filterMap outlineOfRun?

theorem all_isAsciiWord_map_toLower (t : Text) :
    (t.map Char.toLower).all isAsciiWord = t.all isAsciiWord := by
  rw [List.all_map]
  exact congrArg t.all (funext isAsciiWord_toLower)

theorem outlineOfRun?_eq_word_iff (hword : word.IsOneWord) :
    outlineOfRun? r = some (word.map Char.toLower) ↔ r.EqUpToCase word := by
  rw [outlineOfRun?]
  split_ifs with hr hhyphen
  · exact Option.some_inj
  · subst hhyphen
    refine iff_of_false (fun h => ?_) fun h => hr (hword.of_eqUpToCase h).all_isAsciiWord
    have hall := all_isAsciiWord_map_toLower word
    rw [← Option.some.inj h, hword.all_isAsciiWord] at hall
    cases hall
  · exact iff_of_false (by simp) fun h => hr (hword.of_eqUpToCase h).all_isAsciiWord

theorem outlineOfRun?_eq_hyphen_iff : outlineOfRun? r = some ['-'] ↔ r = ['-'] := by
  rw [outlineOfRun?]
  split_ifs with hr hhyphen
  · refine iff_of_false (fun h => ?_) fun h => by rw [h] at hr; cases hr
    rw [← all_isAsciiWord_map_toLower, Option.some.inj h] at hr
    cases hr
  · exact Option.some_inj
  · exact iff_of_false (by simp) hhyphen

/-- **The outline tells the tokens.** -/
theorem hasToken_iff_mem_outline (hword : word.IsOneWord) :
    t.HasToken word ↔ word.map Char.toLower ∈ t.outline := by
  rw [outline, List.mem_filterMap]
  constructor
  · rintro ⟨v, hv, hcase⟩
    exact ⟨v, (List.mem_filter.mp hv).1, (outlineOfRun?_eq_word_iff hword).mpr hcase⟩
  · rintro ⟨v, hv, e⟩
    have hcase := (outlineOfRun?_eq_word_iff hword).mp e
    exact ⟨v, List.mem_filter.mpr ⟨hv, (hword.of_eqUpToCase hcase).all_isAsciiWord⟩, hcase⟩

/-- **The outline tells which tokens have exactly a hyphen between them**: next to a hyphen that stands
alone there is no run that the outline leaves out. -/
theorem hasHyphenated_iff_infix_outline (hfirst : first.IsOneWord) (hsecond : second.IsOneWord) :
    t.HasHyphenated first second ↔
      [first.map Char.toLower, ['-'], second.map Char.toLower] <:+: t.outline := by
  have htold : ∀ r : Text, r.all isAsciiWord = true → outlineOfRun? r ≠ none := by
    intro r hr
    rw [outlineOfRun?, if_pos hr]
    simp
  constructor
  · rintro ⟨v, v', hruns, hv, hv'⟩
    have hinfix := hruns.filterMap outlineOfRun?
    rwa [List.filterMap_cons_some ((outlineOfRun?_eq_word_iff hfirst).mpr hv),
      List.filterMap_cons_some (outlineOfRun?_eq_hyphen_iff.mpr rfl),
      List.filterMap_cons_some ((outlineOfRun?_eq_word_iff hsecond).mpr hv')] at hinfix
  · rintro ⟨a, b, e⟩
    rw [List.append_assoc, outline, eq_comm, List.filterMap_eq_append_iff] at e
    obtain ⟨l, m, hl, -, e⟩ := e
    obtain ⟨gap, v, m, rfl, -, hv, e⟩ := List.filterMap_eq_cons_iff.mp e
    obtain ⟨gap₁, x, m, rfl, hgap₁, hx, e⟩ := List.filterMap_eq_cons_iff.mp e
    obtain ⟨gap₂, v', m, rfl, hgap₂, hv', -⟩ := List.filterMap_eq_cons_iff.mp e
    obtain rfl := outlineOfRun?_eq_hyphen_iff.mp hx
    have hnil₁ : gap₁ = [] := by
      rcases List.eq_nil_or_concat' gap₁ with rfl | ⟨g, r, rfl⟩
      · rfl
      · have hnext : [r, ['-']] <:+: t.runs := ⟨l ++ gap ++ v :: g, gap₂ ++ v' :: m, by simp [hl]⟩
        exact absurd (hgap₁ r (by simp)) (htold r (all_isAsciiWord_of_neighbours hnext))
    have hnil₂ : gap₂ = [] := by
      rcases gap₂ with _ | ⟨r, g⟩
      · rfl
      · have hnext : [['-'], r] <:+: t.runs := ⟨l ++ gap ++ v :: gap₁, g ++ v' :: m, by simp [hl]⟩
        have hr : (!r.all isAsciiWord) = false := (all_isAsciiWord_of_neighbours hnext).symm
        exact absurd (hgap₂ r (by simp)) (htold r (by simpa using hr))
    subst hnil₁ hnil₂
    exact ⟨v, v', ⟨l ++ gap, m, by simp [hl]⟩, (outlineOfRun?_eq_word_iff hfirst).mp hv,
      (outlineOfRun?_eq_word_iff hsecond).mp hv'⟩

end CommandVetting.Text
