import CommandVetting.Proofs.Pattern.Context
import CommandVetting.Proofs.Text.Letters
import CommandVetting.Proofs.Text.Trim

/-!
# How spans start and end

The first and the last character of a span belong to classes that can be read off the pattern. When
none of these classes holds padding, the padding around a text is no part of any span.

* `Pattern.firsts`, `Pattern.lasts`: the classes on which spans start and end;
* `Derives.exists_firsts`, `Derives.exists_lasts`: **the ends of a span are in these classes**;
* `CharClass.avoidsPadding`, `Pattern.isSolid`: spans that start and end on no padding;
* **`OccursBefore.cut`**: an occurrence of a solid pattern is still there when padding is cut off.
-/

namespace CommandVetting

namespace Pattern

/-- The classes on which a span may start. -/
def firsts : Pattern → List CharClass
  | one k => [k]
  | seq p q => p.firsts ++ if p.nullable then q.firsts else []
  | alt p q => p.firsts ++ q.firsts
  | star p => p.firsts
  | empty | boundary | start | stop => []

/-- The classes on which a span may end. -/
def lasts : Pattern → List CharClass
  | one k => [k]
  | seq p q => q.lasts ++ if q.nullable then p.lasts else []
  | alt p q => p.lasts ++ q.lasts
  | star p => p.lasts
  | empty | boundary | start | stop => []

end Pattern

/-! ## The classes at the ends -/

/-- Some class of the list has the character. -/
def CoveredBy (ks : List CharClass) (c : Char) : Prop := ∃ k ∈ ks, k.contains c = true

theorem CoveredBy.left {ks ls : List CharClass} {c : Char} (h : CoveredBy ks c) :
    CoveredBy (ks ++ ls) c := by
  obtain ⟨k, hk, hc⟩ := h
  exact ⟨k, List.mem_append_left _ hk, hc⟩

theorem CoveredBy.right {ks ls : List CharClass} {c : Char} (h : CoveredBy ls c) :
    CoveredBy (ks ++ ls) c := by
  obtain ⟨k, hk, hc⟩ := h
  exact ⟨k, List.mem_append_right _ hk, hc⟩

variable {p : Pattern} {u v w : Text}

theorem Derives.nullable (h : Derives p u [] w) : p.nullable = true := by
  by_contra hp
  exact h.ne_nil (by simpa using hp) rfl

/-- **A span starts in one of the first classes.** -/
theorem Derives.exists_firsts (h : Derives p u v w) : ∀ c ∈ v.head?, CoveredBy p.firsts c := by
  induction h with
  | @one k u w c hc =>
    intro d hd
    obtain rfl : c = d := by simpa using hd
    exact ⟨k, by simp [Pattern.firsts], hc⟩
  | @seq p q u v v' w left right ihl ihr =>
    intro c hc
    cases v with
    | nil =>
      rw [Pattern.firsts, if_pos left.nullable]
      exact (ihr c hc).right
    | cons a v => exact (ihl c hc).left
  | altLeft h ih => exact fun c hc => (ih c hc).left
  | altRight h ih => exact fun c hc => (ih c hc).right
  | @starCons p u v v' w left right ihl ihr =>
    intro c hc
    cases v with
    | nil => exact ihr c hc
    | cons a v => exact ihl c hc
  | empty | starNil | boundary | start | stop => simp

/-- **A span ends in one of the last classes.** -/
theorem Derives.exists_lasts (h : Derives p u v w) : ∀ c ∈ v.getLast?, CoveredBy p.lasts c := by
  induction h with
  | @one k u w c hc =>
    intro d hd
    obtain rfl : c = d := by simpa using hd
    exact ⟨k, by simp [Pattern.lasts], hc⟩
  | @seq p q u v v' w left right ihl ihr =>
    intro c hc
    by_cases hv : v' = []
    · subst hv
      rw [List.append_nil] at hc
      rw [Pattern.lasts, if_pos right.nullable]
      exact (ihl c hc).right
    · rw [List.getLast?_append_of_ne_nil v hv] at hc
      exact (ihr c hc).left
  | altLeft h ih => exact fun c hc => (ih c hc).left
  | altRight h ih => exact fun c hc => (ih c hc).right
  | @starCons p u v v' w left right ihl ihr =>
    intro c hc
    by_cases hv : v' = []
    · subst hv
      rw [List.append_nil] at hc
      exact ihl c hc
    · rw [List.getLast?_append_of_ne_nil v hv] at hc
      exact ihr c hc
  | empty | starNil | boundary | start | stop => simp

/-! ## Solid patterns -/

/-- The class has no padding. -/
def CharClass.avoidsPadding : CharClass → Bool
  | literal c => !isPadding c
  | anyInLine => false
  | blank => false
  | word => true
  | anyOf cs => cs.all fun c => !isPadding c

theorem CharClass.isPadding_of_avoidsPadding {k : CharClass} {c : Char}
    (hk : k.avoidsPadding = true) (hc : k.contains c = true) : isPadding c = false := by
  cases k with
  | literal d =>
    rw [isPadding_eq_of_isVariant hc]
    exact (Bool.not_eq_true' _).mp hk
  | anyInLine => cases hk
  | blank => cases hk
  | word =>
    by_contra hp
    rw [Bool.not_eq_false] at hp
    rw [CharClass.contains, isWord_of_isPadding hp] at hc
    cases hc
  | anyOf cs =>
    obtain ⟨d, hd, hv⟩ := List.any_eq_true.mp hc
    rw [isPadding_eq_of_isVariant hv]
    exact (Bool.not_eq_true' _).mp (List.all_eq_true.mp hk d hd)

/-- Every span starts and ends on a character that is no padding. -/
def Pattern.isSolid (p : Pattern) : Bool :=
  !p.nullable && p.firsts.all CharClass.avoidsPadding && p.lasts.all CharClass.avoidsPadding

theorem CoveredBy.isPadding_eq_false {ks : List CharClass} {c : Char} (h : CoveredBy ks c)
    (hk : ks.all CharClass.avoidsPadding = true) : isPadding c = false := by
  obtain ⟨k, hm, hc⟩ := h
  exact CharClass.isPadding_of_avoidsPadding (List.all_eq_true.mp hk k hm) hc

theorem Derives.ends_of_isSolid (h : Derives p u v w) (hp : p.isSolid = true) :
    (∃ c ∈ v.head?, isPadding c = false) ∧ ∃ c ∈ v.getLast?, isPadding c = false := by
  simp only [Pattern.isSolid, Bool.and_eq_true, Bool.not_eq_true'] at hp
  obtain ⟨⟨hn, hf⟩, hl⟩ := hp
  have hv : v ≠ [] := h.ne_nil hn
  have hhead := List.head?_eq_some_head hv
  have hlast := List.getLast?_eq_some_getLast hv
  exact ⟨⟨_, hhead, (h.exists_firsts _ hhead).isPadding_eq_false hf⟩,
    ⟨_, hlast, (h.exists_lasts _ hlast).isPadding_eq_false hl⟩⟩

theorem Pattern.OccursBefore.ne_nil {K : Text → Prop} {t : Text} (h : p.OccursBefore K t)
    (hp : p.isSolid = true) : t ≠ [] := by
  obtain ⟨u, v, w, rfl, hd, -⟩ := h
  obtain ⟨⟨c, hc, -⟩, -⟩ := hd.ends_of_isSolid hp
  intro e
  obtain ⟨rfl, rfl, rfl⟩ : u = [] ∧ v = [] ∧ w = [] := by simpa using e
  cases hc

/-! ## Cutting padding off -/

theorem Text.endsInWord_of_isPadding {a : Text} (ha : ∀ c ∈ a, isPadding c = true) :
    a.endsInWord = false :=
  endsInWord_eq_false fun c hc => isAsciiWord_of_isPadding (ha c (List.mem_of_getLast? hc))

theorem Text.startsInWord_of_isPadding {b : Text} (hb : ∀ c ∈ b, isPadding c = true) :
    b.startsInWord = false :=
  startsInWord_eq_false fun c hc => isAsciiWord_of_isPadding (hb c (List.mem_of_head? hc))

/-- **An occurrence of a solid local pattern is still there when padding is cut off** at the two ends
of the text. -/
theorem Pattern.OccursBefore.cut {K K' : Text → Prop} {s a b : Text}
    (h : p.OccursBefore K (a ++ s ++ b)) (hp : p.isLocal = true) (hs : p.isSolid = true)
    (ha : ∀ c ∈ a, isPadding c = true) (hb : ∀ c ∈ b, isPadding c = true)
    (hK : ∀ w, K (w ++ b) → K' w) : p.OccursBefore K' s := by
  obtain ⟨u, v, w, e, hd, hw⟩ := h
  obtain ⟨⟨x, hx, hxp⟩, y, hy, hyp⟩ := hd.ends_of_isSolid hs
  have hv : v ≠ [] := by rintro rfl; cases hx
  -- The span starts after the padding before the text, and ends before the padding after it.
  have e' : a ++ (s ++ b) = u ++ (v ++ w) := by simpa using e
  have hfirst : ∃ c ∈ (v ++ w).head?, isPadding c = false :=
    ⟨x, by rwa [List.head?_append_of_ne_nil v hv], hxp⟩
  obtain ⟨u', rfl, e''⟩ := Text.exists_append_of_head? e' ha hfirst
  rw [← List.append_assoc] at e''
  have hlast : ∃ c ∈ (u' ++ v).getLast?, isPadding c = false :=
    ⟨y, by rwa [List.getLast?_append_of_ne_nil u' hv], hyp⟩
  obtain ⟨w', rfl, rfl⟩ := Text.exists_append_of_getLast? e'' hb hlast
  rw [isLocal, Bool.and_eq_true] at hp
  refine ⟨u', v, w', rfl, ?_, hK w' hw⟩
  exact hd.of_alike hp.2 (.inl hp.1) (Text.endsInWord_append_left (Text.endsInWord_of_isPadding ha))
    (Text.startsInWord_append_right (Text.startsInWord_of_isPadding hb))

end CommandVetting
