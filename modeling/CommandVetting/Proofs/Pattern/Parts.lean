import CommandVetting.Proofs.Pattern.Ends
import CommandVetting.Proofs.Pattern.Following

/-!
# The parts of a pattern

A pattern that is a row derives a span only where each part of the row derives a piece of it. A part none
of whose classes has a certain sign derives no span over this sign, so that it occurs on one side of it.

* `Pattern.row`: the members of a row; `Pattern.OccursIn.part`: **what a row finds, its parts find**;
* `Derives.coveredBy_classes`: a span consists of characters that the pattern names;
* `Pattern.lacks`, `OccursBefore.of_append_cons`: **an occurrence stands on one side of a sign** that the
  pattern does not name;
* `OccursBefore.of_append_append`: and on one side of several such signs.
-/

namespace CommandVetting

variable {p : Pattern} {K : Text → Prop} {s t u v w a b : Text} {x : Char}

/-! ## Parts of a row -/

/-- The patterns that stand one after the other. -/
def Pattern.row : Pattern → List Pattern
  | seq p q => p.row ++ q.row
  | p => [p]

theorem Derives.ofSeq_row (h : Derives p u v w) : Derives (.ofSeq p.row) u v w := by
  induction p generalizing u v w with
  | seq p q ihp ihq =>
    cases h with
    | seq left right => exact derives_ofSeq_append.mpr ⟨_, _, rfl, ihp left, ihq right⟩
  | _ => exact h

/-- **Where a pattern occurs, every part of its row occurs.** -/
theorem Pattern.OccursIn.part (h : p.OccursIn t) {qs : List Pattern} (hqs : qs <:+: p.row) :
    (ofSeq qs).OccursIn t := by
  obtain ⟨u, v, w, rfl, hd⟩ := h
  obtain ⟨ps, rs, hrow⟩ := hqs
  have hd' := hd.ofSeq_row
  rw [← hrow] at hd'
  obtain ⟨v₁, v₃, rfl, h₁, -⟩ := derives_ofSeq_append.mp hd'
  obtain ⟨v₁, v₂, rfl, -, h₂⟩ := derives_ofSeq_append.mp h₁
  exact ⟨u ++ v₁, v₂, v₃ ++ w, by simp, h₂⟩

/-! ## Signs that a pattern does not name -/

/-- **A span consists of characters that the pattern names.** -/
theorem Derives.coveredBy_classes (h : Derives p u v w) : ∀ c ∈ v, CoveredBy p.classes c := by
  induction h with
  | @one k u w c hc =>
    intro d hd
    obtain rfl := List.mem_singleton.mp hd
    exact ⟨k, by simp [Pattern.classes], hc⟩
  | seq left right ihl ihr =>
    intro c hc
    rcases List.mem_append.mp hc with hc | hc
    · exact (ihl c hc).left
    · exact (ihr c hc).right
  | altLeft h ih => exact fun c hc => (ih c hc).left
  | altRight h ih => exact fun c hc => (ih c hc).right
  | starCons left right ihl ihr =>
    intro c hc
    rcases List.mem_append.mp hc with hc | hc
    · exact ihl c hc
    · exact ihr c hc
  | empty | starNil | boundary | start | stop => simp

/-- No class of the pattern has the sign. -/
def Pattern.lacks (p : Pattern) (x : Char) : Bool := p.classes.all fun k => !k.contains x

theorem Derives.notMem_of_lacks (h : Derives p u v w) (hx : p.lacks x = true) : x ∉ v := by
  intro hm
  obtain ⟨k, hk, hc⟩ := h.coveredBy_classes x hm
  have hnot := List.all_eq_true.mp hx k hk
  rw [hc] at hnot
  cases hnot

/-- What does not have a sign stands on one side of it. -/
theorem append_cons_eq_cases (e : a ++ x :: b = u ++ v ++ w) (hv : x ∉ v) :
    (∃ w', a = u ++ v ++ w' ∧ w = w' ++ x :: b) ∨ ∃ u', u = a ++ x :: u' ∧ b = u' ++ v ++ w := by
  rcases List.append_eq_append_iff.mp e with ⟨a', ha, he⟩ | ⟨w', rfl, rfl⟩
  · cases a' with
    | nil => exact .inl ⟨[], by simpa using ha.symm, by simpa using he.symm⟩
    | cons y a' =>
      obtain ⟨rfl, rfl⟩ := List.cons.inj he
      rcases List.append_eq_append_iff.mp ha with ⟨c, rfl, rfl⟩ | ⟨c, rfl, hc⟩
      · simp at hv
      · cases c with
        | nil =>
          obtain rfl : v = x :: a' := by simpa using hc.symm
          simp at hv
        | cons y c =>
          obtain ⟨rfl, rfl⟩ := List.cons.inj hc
          exact .inr ⟨c, rfl, rfl⟩
  · exact .inl ⟨w', rfl, rfl⟩

/-- **An occurrence stands on one side of a sign** that the pattern does not name and that is in no word.
The condition on what follows must not look at all of it. -/
theorem Pattern.OccursBefore.of_append_cons (h : p.OccursBefore K (a ++ x :: b))
    (hp : p.isLocal = true) (hx : p.lacks x = true) (hword : isAsciiWord x = false)
    (hK : ∀ w r, K (w ++ r) → K w) : p.OccursBefore K a ∨ p.OccursBefore K b := by
  obtain ⟨u, v, w, e, hd, hw⟩ := h
  rw [isLocal, Bool.and_eq_true] at hp
  rcases append_cons_eq_cases e (hd.notMem_of_lacks hx) with ⟨w', rfl, rfl⟩ | ⟨u', rfl, rfl⟩
  · have hright : Text.startsInWord (x :: b) = false := hword
    exact .inl ⟨u, v, w', rfl, hd.of_alike hp.2 (.inl hp.1) rfl
      (Text.startsInWord_append_right hright), hK w' _ hw⟩
  · have hleft : (a ++ [x]).endsInWord = false := by simp [Text.endsInWord, hword]
    have hu := Text.endsInWord_append_left (u := u') hleft
    rw [List.append_assoc, List.singleton_append] at hu
    exact .inr ⟨u', v, w, rfl, hd.of_alike hp.2 (.inl hp.1) hu rfl, hw⟩

theorem Pattern.not_occursBefore_nil (hn : p.nullable = false) : ¬ p.OccursBefore K [] := by
  rintro ⟨u, v, w, e, hd, -⟩
  obtain ⟨rfl, rfl, rfl⟩ : u = [] ∧ v = [] ∧ w = [] := by simpa using e.symm
  exact hd.ne_nil hn rfl

/-- **An occurrence stands on one side of several signs** of this kind. -/
theorem Pattern.OccursBefore.of_append_append (h : p.OccursBefore K (a ++ s ++ b)) (hs : s ≠ [])
    (hp : p.isLocal = true) (hn : p.nullable = false)
    (hlacks : ∀ x ∈ s, p.lacks x = true ∧ isAsciiWord x = false) (hK : ∀ w r, K (w ++ r) → K w) :
    p.OccursBefore K a ∨ p.OccursBefore K b := by
  -- An occurrence behind the first sign stands before or behind the others, and there is nothing before.
  induction s generalizing a with
  | nil => exact absurd rfl hs
  | cons x s ih =>
    obtain ⟨hx, hword⟩ := hlacks x List.mem_cons_self
    rw [List.append_assoc, List.cons_append] at h
    rcases h.of_append_cons hp hx hword hK with h | h
    · exact .inl h
    · by_cases hs : s = []
      · subst hs
        exact .inr h
      · have hrest := ih (a := []) h hs fun y hy => hlacks y (List.mem_cons_of_mem x hy)
        exact .inr (hrest.resolve_left (not_occursBefore_nil hn))

end CommandVetting
