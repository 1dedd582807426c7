import CommandVetting.Proofs.Pattern.Context
import CommandVetting.Proofs.Pattern.Spans
import CommandVetting.Proofs.Text.Letters

/-!
# Words

A pattern names a word letter by letter. Two signs outside ASCII fold to ASCII letters; in a text
without them a letter stands for its small form and its capital and for nothing else, so that the
spans of a word's pattern can be told without patterns.

* `Text.IsPlain`, `Text.IsPlainFor`, `Text.EqUpToCase`: texts without these signs, texts without those
  that stand for a letter of a word, and equality up to the case of ASCII letters;
* `Text.IsToken u v w`: **a maximal run of ASCII word characters**; `Text.TokenIs`, `Text.StandsFree`,
  `Text.Reads`: three ways in which a word may stand in a text;
* `Text.HasInOrder`, `Text.HasOnward`: one span in a text, and another one further on, anywhere or before
  the next line feed;
* `Pattern.letters`, `Pattern.freeWord`: the patterns of a word, and of a word between boundaries;
* `Text.isKeyword`: a word that can be looked for between boundaries;
* `derives_boundary_append`, `derives_append_boundary`: a boundary before a word, and behind one;
* **`derives_freeWord`, `Text.tokenIs_eq_standsFree`**: what is found there.
-/

namespace CommandVetting

/-! ## Case -/

namespace Text

variable {u v w word : Text}

/-- The text has neither of the two signs outside ASCII that fold to ASCII letters. -/
structure IsPlain (t : Text) : Prop where
  longS_notMem : longS ∉ t
  kelvinSign_notMem : kelvinSign ∉ t

/-- Neither of the two signs stands in the text for a letter of the word. -/
structure IsPlainFor (word t : Text) : Prop where
  longS : longS ∈ t → 's' ∉ word.map foldCase
  kelvinSign : kelvinSign ∈ t → 'k' ∉ word.map foldCase

/-- The texts are equal up to the case of ASCII letters. -/
def EqUpToCase (v word : Text) : Prop := v.map Char.toLower = word.map Char.toLower

theorem IsPlain.of_subset {t : Text} (ht : t.IsPlain) (h : v ⊆ t) : v.IsPlain :=
  ⟨fun hm => ht.longS_notMem (h hm), fun hm => ht.kelvinSign_notMem (h hm)⟩

theorem IsPlain.isPlainFor {t : Text} (ht : t.IsPlain) : IsPlainFor word t :=
  ⟨fun hs => absurd hs ht.longS_notMem, fun hk => absurd hk ht.kelvinSign_notMem⟩

theorem IsPlainFor.of_subset {t : Text} (ht : IsPlainFor word t) (h : v ⊆ t) : IsPlainFor word v :=
  ⟨fun hs => ht.longS (h hs), fun hk => ht.kelvinSign (h hk)⟩

theorem IsPlain.map_foldCase (hv : v.IsPlain) : v.map foldCase = v.map Char.toLower := by
  refine List.map_congr_left fun c hc => foldCase_eq_toLower ?_ ?_
  · rintro rfl
    exact hv.longS_notMem hc
  · rintro rfl
    exact hv.kelvinSign_notMem hc

/-- What does not depend on case is the same for both texts. -/
theorem EqUpToCase.map_eq {α : Type} {f : Char → α} (hf : ∀ c, f c.toLower = f c) (h : v.EqUpToCase word) :
    v.map f = word.map f := by
  have hlower : ∀ t : Text, t.map f = (t.map Char.toLower).map f := by
    intro t
    rw [List.map_map]
    exact List.map_congr_left fun c _ => (hf c).symm
  rw [hlower v, hlower word, h]

theorem EqUpToCase.map_foldCase (h : v.EqUpToCase word) : v.map foldCase = word.map foldCase :=
  h.map_eq foldCase_toLower

/-- **Folding tells the letters of a plain word apart**, where neither sign stands for one of them. -/
theorem map_foldCase_eq_iff (hword : word.IsPlain) (hv : IsPlainFor word v) :
    v.map foldCase = word.map foldCase ↔ v.EqUpToCase word := by
  refine ⟨fun h => ?_, EqUpToCase.map_foldCase⟩
  have hplain : v.IsPlain := by
    refine ⟨fun hs => hv.longS hs ?_, fun hk => hv.kelvinSign hk ?_⟩
    · rw [← h]
      exact List.mem_map_of_mem hs
    · rw [← h]
      exact List.mem_map_of_mem hk
  rwa [hplain.map_foldCase, hword.map_foldCase] at h

theorem EqUpToCase.map_isAsciiWord (h : v.EqUpToCase word) :
    v.map isAsciiWord = word.map isAsciiWord := h.map_eq isAsciiWord_toLower

theorem EqUpToCase.startsInWord (h : v.EqUpToCase word) : v.startsInWord = word.startsInWord := by
  have hmap : ∀ t : Text, t.startsInWord = (t.map isAsciiWord).head?.any id := by
    simp [Text.startsInWord, Option.any_map]
  rw [hmap v, hmap word, h.map_isAsciiWord]

theorem EqUpToCase.endsInWord (h : v.EqUpToCase word) : v.endsInWord = word.endsInWord := by
  have hmap : ∀ t : Text, t.endsInWord = (t.map isAsciiWord).getLast?.any id := by
    simp [Text.endsInWord, Option.any_map]
  rw [hmap v, hmap word, h.map_isAsciiWord]

theorem EqUpToCase.all_isAsciiWord (h : v.EqUpToCase word) :
    v.all isAsciiWord = word.all isAsciiWord := by
  have hmap : ∀ t : Text, t.all isAsciiWord = (t.map isAsciiWord).all id := by
    simp [List.all_map]
  rw [hmap v, hmap word, h.map_isAsciiWord]

theorem startsInWord_append (h : v.startsInWord = true) : (v ++ w).startsInWord = true := by
  cases v with
  | nil => cases h
  | cons c v => exact h

theorem endsInWord_append (h : v.endsInWord = true) : (u ++ v).endsInWord = true := by
  unfold Text.endsInWord at h ⊢
  rw [List.getLast?_append]
  cases hc : v.getLast? with
  | none =>
    rw [hc] at h
    cases h
  | some c => rwa [hc] at h

/-! ## Words in a text -/

/-- The span is a maximal run of ASCII word characters. -/
structure IsToken (before span after : Text) : Prop where
  ne_nil : span ≠ []
  all_isAsciiWord : span.all isAsciiWord = true
  left : before.endsInWord = false
  right : after.startsInWord = false

/-- The span is the word, up to case. -/
def Reads (word _before span _after : Text) : Prop := span.EqUpToCase word

/-- The span is the word, up to case, and no ASCII word character stands next to it. -/
structure StandsFree (word before span after : Text) : Prop where
  reads : span.EqUpToCase word
  left : before.endsInWord = false
  right : after.startsInWord = false

/-- The span is a token, and up to case it is the word. -/
structure TokenIs (word before span after : Text) : Prop where
  reads : span.EqUpToCase word
  isToken : IsToken before span after

/-- The text has a span of the first kind and, from its end on, one of the second kind. -/
def HasInOrder (t : Text) (first second : Text → Text → Text → Prop) : Prop :=
  ∃ u v m v' w, t = u ++ v ++ m ++ v' ++ w ∧ first u v (m ++ v' ++ w) ∧ second (u ++ v ++ m) v' w

/-- The text has a span of the first kind and, from its end on, one of the second kind that starts before
the next line feed or at it. -/
def HasOnward (t : Text) (first second : Text → Text → Text → Prop) : Prop :=
  ∃ u v m v' w, t = u ++ v ++ m ++ v' ++ w ∧ '\n' ∉ m ∧ first u v (m ++ v' ++ w) ∧
    second (u ++ v ++ m) v' w

theorem hasOnward_iff_hasInOrder {t : Text} {first second : Text → Text → Text → Prop}
    (hline : '\n' ∉ t) : t.HasOnward first second ↔ t.HasInOrder first second := by
  constructor
  · rintro ⟨u, v, m, v', w, e, -, h⟩
    exact ⟨u, v, m, v', w, e, h⟩
  · rintro ⟨u, v, m, v', w, rfl, h⟩
    exact ⟨u, v, m, v', w, rfl, fun hm => hline (by simp [hm]), h⟩

/-- A word that can be looked for between boundaries: in a plain text its letters stand for themselves
up to case, and its ends are ends of tokens. -/
def isKeyword (word : Text) : Bool :=
  !word.contains longS && !word.contains kelvinSign && word.startsInWord && word.endsInWord

theorem isKeyword_iff : word.isKeyword = true ↔
    word.IsPlain ∧ word.startsInWord = true ∧ word.endsInWord = true := by
  simp only [isKeyword, Bool.and_eq_true, Bool.not_eq_true', List.contains_eq_mem,
    decide_eq_false_iff_not, and_assoc]
  exact ⟨fun ⟨hs, hk, h⟩ => ⟨⟨hs, hk⟩, h⟩, fun ⟨⟨hs, hk⟩, h⟩ => ⟨hs, hk, h⟩⟩

/-- **A keyword of ASCII word characters that stands free is a token.** -/
theorem tokenIs_eq_standsFree (hword : word.isKeyword = true) (hw : word.all isAsciiWord = true) :
    TokenIs word = StandsFree word := by
  have hne : word ≠ [] := by
    rintro rfl
    cases hword
  funext u v w
  refine propext ⟨fun h => ⟨h.reads, h.isToken.left, h.isToken.right⟩, fun h => ?_⟩
  refine ⟨h.reads, ?_, h.reads.all_isAsciiWord.trans hw, h.left, h.right⟩
  rintro rfl
  exact hne (List.map_eq_nil_iff.mp h.reads.symm)

end Text

/-! ## Patterns of words -/

namespace Pattern

/-- The patterns of a word, letter by letter. -/
def letters (word : Text) : List Pattern := word.map fun c => .one (.literal c)

/-- The patterns of a word between two boundaries. -/
def freeWord (word : Text) : List Pattern := .boundary :: (letters word ++ [.boundary])

end Pattern

open Pattern (letters freeWord)

variable {u v w word : Text}

theorem derives_letters :
    Derives (.ofSeq (letters word)) u v w ↔ v.map foldCase = word.map foldCase := by
  induction word generalizing u v with
  | nil =>
    rw [List.map_nil, List.map_eq_nil_iff]
    constructor
    · rintro ⟨⟩
      rfl
    · rintro rfl
      exact .empty
  | cons a word ih =>
    rw [letters, List.map_cons, derives_ofSeq_cons]
    constructor
    · intro h
      cases h with
      | seq left right =>
        cases left with
        | @one _ _ _ c hc =>
          have hfold : foldCase a = foldCase c := by simpa [CharClass.contains, isVariant] using hc
          rw [List.singleton_append, List.map_cons, List.map_cons, ih.mp right, hfold]
    · intro h
      cases v with
      | nil => cases h
      | cons c v =>
        rw [List.map_cons, List.map_cons, List.cons.injEq] at h
        refine .seq (v := [c]) (.one ?_) (ih.mpr h.2)
        simp [CharClass.contains, isVariant, h.1]

/-- In a plain text the letters of a plain word stand for themselves up to case. -/
theorem derives_letters_iff_reads (hword : word.IsPlain) (hv : Text.IsPlainFor word v) :
    Derives (.ofSeq (letters word)) u v w ↔ Text.Reads word u v w :=
  derives_letters.trans (Text.map_foldCase_eq_iff hword hv)

theorem derives_boundary : Derives .boundary u v w ↔ v = [] ∧ u.endsInWord ≠ w.startsInWord := by
  have hb : isBoundary u.getLast? w.head? = true ↔ u.endsInWord ≠ w.startsInWord := bne_iff_ne
  constructor
  · intro h
    cases h with
    | boundary h => exact ⟨rfl, hb.mp h⟩
  · rintro ⟨rfl, h⟩
    exact .boundary (hb.mpr h)

theorem derives_boundary_append (hs : v.startsInWord = true) :
    Derives .boundary u [] (v ++ w) ↔ u.endsInWord = false := by
  rw [derives_boundary, Text.startsInWord_append hs]
  simp

theorem derives_append_boundary (he : v.endsInWord = true) :
    Derives .boundary (u ++ v) [] w ↔ w.startsInWord = false := by
  rw [derives_boundary, Text.endsInWord_append he]
  simp

/-- A boundary and a row of patterns behind it. -/
theorem derives_boundary_cons {ps : List Pattern} : Derives (.ofSeq (.boundary :: ps)) u v w ↔
    Derives .boundary u [] (v ++ w) ∧ Derives (.ofSeq ps) u v w := by
  rw [derives_ofSeq_cons]
  constructor
  · intro h
    cases h with
    | seq left right =>
      cases left with
      | boundary hb =>
        rw [List.append_nil] at right
        exact ⟨.boundary hb, right⟩
  · rintro ⟨hb, h⟩
    exact .seq (v := []) hb (by rwa [List.append_nil])

/-- A row of patterns and a boundary behind it. -/
theorem derives_concat_boundary {ps : List Pattern} : Derives (.ofSeq (ps ++ [.boundary])) u v w ↔
    Derives (.ofSeq ps) u v w ∧ Derives .boundary (u ++ v) [] w := by
  rw [derives_ofSeq_append]
  constructor
  · rintro ⟨v₁, v₂, rfl, h, hb⟩
    cases hb with
    | boundary hb =>
      rw [List.append_nil]
      exact ⟨h, .boundary hb⟩
  · rintro ⟨h, hb⟩
    exact ⟨v, [], (List.append_nil v).symm, h, hb⟩

/-- **A keyword between two boundaries stands free.** -/
theorem derives_freeWord (hkey : word.isKeyword = true) (hv : Text.IsPlainFor word v) :
    Derives (.ofSeq (freeWord word)) u v w ↔ Text.StandsFree word u v w := by
  obtain ⟨hword, hs, he⟩ := Text.isKeyword_iff.mp hkey
  rw [freeWord, derives_boundary_cons, derives_concat_boundary, derives_letters_iff_reads hword hv]
  constructor
  · rintro ⟨hl, hm, hr⟩
    exact ⟨hm, (derives_boundary_append (hm.startsInWord.trans hs)).mp hl,
      (derives_append_boundary (hm.endsInWord.trans he)).mp hr⟩
  · rintro ⟨hm, hl, hr⟩
    exact ⟨(derives_boundary_append (hm.startsInWord.trans hs)).mpr hl, hm,
      (derives_append_boundary (hm.endsInWord.trans he)).mpr hr⟩

end CommandVetting
