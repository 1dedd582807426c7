import Mathlib.Tactic.Common
import CommandVetting.Pattern.Basic

/-!
# What a pattern sees around a span

A derivation depends on the text around its span in two ways. A boundary asks whether the next
character before or after the span is an ASCII word character; the anchors ask whether there is any.
A pattern that never tries an anchor where it could hold is local: the text around the span may be
exchanged as long as the neighbours are alike.

* `Text.endsInWord`, `Text.startsInWord`: what a boundary asks;
* `Pattern.nullable`, `Pattern.startFree`, `Pattern.stopFree`, `Pattern.isLocal`;
* **`Derives.of_alike`: a local pattern derives the same spans between neighbours that are alike**;
* `Pattern.OccursBefore`: an occurrence with a condition on what follows it;
* **`OccursBefore.embed`**: an occurrence is still there when its text is set into a larger one.
-/

namespace CommandVetting

/-! ## The neighbours of a span -/

namespace Text

/-- The last character is an ASCII word character. -/
def endsInWord (u : Text) : Bool := u.getLast?.any isAsciiWord

/-- The first character is an ASCII word character. -/
def startsInWord (w : Text) : Bool := w.head?.any isAsciiWord

variable {u u' v w w' : Text}

theorem endsInWord_append_congr (h : u.endsInWord = u'.endsInWord) :
    (u ++ v).endsInWord = (u' ++ v).endsInWord := by
  unfold endsInWord at h ⊢
  rw [List.getLast?_append, List.getLast?_append]
  cases v.getLast? with
  | none => exact h
  | some c => rfl

theorem startsInWord_append_congr (h : w.startsInWord = w'.startsInWord) :
    (v ++ w).startsInWord = (v ++ w').startsInWord := by
  unfold startsInWord at h ⊢
  rw [List.head?_append, List.head?_append]
  cases v.head? with
  | none => exact h
  | some c => rfl

theorem endsInWord_append_left {a : Text} (ha : a.endsInWord = false) :
    (a ++ u).endsInWord = u.endsInWord := by
  have h : a.endsInWord = endsInWord [] := ha
  rw [endsInWord_append_congr h, List.nil_append]

theorem startsInWord_append_right {b : Text} (hb : b.startsInWord = false) :
    (w ++ b).startsInWord = w.startsInWord := by
  have h : b.startsInWord = startsInWord [] := hb
  rw [startsInWord_append_congr h, List.append_nil]

theorem endsInWord_eq_false (h : ∀ c ∈ u.getLast?, isAsciiWord c = false) :
    u.endsInWord = false := by
  rw [endsInWord]
  cases hc : u.getLast? with
  | none => rfl
  | some c => exact h c hc

theorem startsInWord_eq_false (h : ∀ c ∈ w.head?, isAsciiWord c = false) :
    w.startsInWord = false := by
  rw [startsInWord]
  cases hc : w.head? with
  | none => rfl
  | some c => exact h c hc

end Text

/-! ## Local patterns -/

namespace Pattern

/-- The pattern may derive the empty span. -/
def nullable : Pattern → Bool
  | empty => true
  | one _ => false
  | seq p q => p.nullable && q.nullable
  | alt p q => p.nullable || q.nullable
  | star _ => true
  | boundary => true
  | start => true
  | stop => true

/-- The start of the text is asked for only after a character. -/
def startFree : Pattern → Bool
  | seq p q => p.startFree && (q.startFree || !p.nullable)
  | alt p q => p.startFree && q.startFree
  | star p => p.startFree
  | start => false
  | empty | one _ | boundary | stop => true

/-- The end of the text is never asked for. -/
def stopFree : Pattern → Bool
  | seq p q | alt p q => p.stopFree && q.stopFree
  | star p => p.stopFree
  | stop => false
  | empty | one _ | boundary | start => true

/-- The pattern does not notice where the text starts and ends. -/
def isLocal (p : Pattern) : Bool := p.startFree && p.stopFree

end Pattern

theorem Derives.ne_nil {p : Pattern} {u v w : Text} (h : Derives p u v w)
    (hp : p.nullable = false) : v ≠ [] := by
  induction h with
  | one => simp
  | seq left right ihl ihr =>
    rw [Pattern.nullable, Bool.and_eq_false_iff] at hp
    rcases hp with hp | hp
    · exact List.append_ne_nil_of_left_ne_nil (ihl hp) _
    · exact List.append_ne_nil_of_right_ne_nil _ (ihr hp)
  | altLeft h ih =>
    rw [Pattern.nullable, Bool.or_eq_false_iff] at hp
    exact ih hp.1
  | altRight h ih =>
    rw [Pattern.nullable, Bool.or_eq_false_iff] at hp
    exact ih hp.2
  | empty | starNil | starCons | boundary | start | stop => cases hp

/-- **A local pattern derives the same spans between neighbours that are alike.** The start of the
text does not matter either once a character stands before the span. -/
theorem Derives.of_alike {p : Pattern} {u v w : Text} (h : Derives p u v w)
    (hstop : p.stopFree = true) (hstart : p.startFree = true ∨ u ≠ []) {u' w' : Text}
    (hu : u.endsInWord = u'.endsInWord) (hw : w.startsInWord = w'.startsInWord) :
    Derives p u' v w' := by
  induction h generalizing u' w' with
  | empty => exact .empty
  | one h => exact .one h
  | @seq p q u v v' w left right ihl ihr =>
    rw [Pattern.stopFree, Bool.and_eq_true] at hstop
    have hl : p.startFree = true ∨ u ≠ [] :=
      hstart.imp_left fun h => by rw [Pattern.startFree, Bool.and_eq_true] at h; exact h.1
    -- Once the first part has consumed a character, the second does not see the start of the text.
    have hr : q.startFree = true ∨ u ++ v ≠ [] := by
      rcases hstart with h | h
      · rw [Pattern.startFree, Bool.and_eq_true, Bool.or_eq_true, Bool.not_eq_true'] at h
        exact h.2.imp_right fun hn => List.append_ne_nil_of_right_ne_nil _ (left.ne_nil hn)
      · exact .inr (List.append_ne_nil_of_left_ne_nil h _)
    exact .seq (ihl hstop.1 hl hu (Text.startsInWord_append_congr hw))
      (ihr hstop.2 hr (Text.endsInWord_append_congr hu) hw)
  | altLeft h ih =>
    rw [Pattern.stopFree, Bool.and_eq_true] at hstop
    rw [Pattern.startFree, Bool.and_eq_true] at hstart
    exact .altLeft (ih hstop.1 (hstart.imp_left And.left) hu hw)
  | altRight h ih =>
    rw [Pattern.stopFree, Bool.and_eq_true] at hstop
    rw [Pattern.startFree, Bool.and_eq_true] at hstart
    exact .altRight (ih hstop.2 (hstart.imp_left And.right) hu hw)
  | starNil => exact .starNil
  | @starCons p u v v' w left right ihl ihr =>
    have hr : p.startFree = true ∨ u ++ v ≠ [] :=
      hstart.imp_right fun h => List.append_ne_nil_of_left_ne_nil h v
    exact .starCons (ihl hstop hstart hu (Text.startsInWord_append_congr hw))
      (ihr hstop hr (Text.endsInWord_append_congr hu) hw)
  | @boundary u w h =>
    refine .boundary ?_
    change (u'.endsInWord != w'.startsInWord) = true
    rw [← hu, ← hw]
    exact h
  | start =>
    rcases hstart with h | h
    · cases h
    · exact absurd rfl h
  | stop => cases hstop

/-! ## Occurrences in larger texts -/

/-- The pattern derives a span of the text after which the condition holds of the rest. -/
def Pattern.OccursBefore (p : Pattern) (K : Text → Prop) (t : Text) : Prop :=
  ∃ u v w, t = u ++ v ++ w ∧ Derives p u v w ∧ K w

theorem Pattern.occursIn_iff_occursBefore {p : Pattern} {t : Text} :
    p.OccursIn t ↔ p.OccursBefore (fun _ => True) t := by
  simp only [OccursIn, OccursBefore, and_true]

/-- **An occurrence of a local pattern is still there when its text is set into a larger one**, if
words do not grow together at the seams. -/
theorem Pattern.OccursBefore.embed {p : Pattern} {K K' : Text → Prop} {s a b : Text}
    (h : p.OccursBefore K s) (hp : p.isLocal = true) (ha : a.endsInWord = false)
    (hb : b.startsInWord = false) (hK : ∀ w, K w → K' (w ++ b)) :
    p.OccursBefore K' (a ++ s ++ b) := by
  obtain ⟨u, v, w, rfl, hd, hw⟩ := h
  rw [isLocal, Bool.and_eq_true] at hp
  refine ⟨a ++ u, v, w ++ b, by simp, ?_, hK w hw⟩
  exact hd.of_alike hp.2 (.inl hp.1) (Text.endsInWord_append_left ha).symm
    (Text.startsInWord_append_right hb).symm

end CommandVetting
