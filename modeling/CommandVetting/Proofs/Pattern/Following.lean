import Mathlib.Data.List.Forall2
import CommandVetting.Proofs.Pattern.Words

/-!
# Texts that follow one another

A pattern looks at a text through its classes, its boundaries and its ends. If a second text has, place
by place, a character that is in all the classes that the character of the first is in, and a boundary
wherever the first has one, then every span of the first is one of the second.

* `Pattern.classes`: the classes that a pattern names;
* `Text.Follows R s t`: the characters of `t` stand to those of `s` as `R` says, and `t` has the boundaries
  of `s`;
* **`Derives.follow`**: what is derived in a text is derived in one that follows it;
* `Pattern.OccursIn.follow`: so a pattern that occurs in the first text occurs in the second.
-/

namespace CommandVetting

/-- The classes that a pattern names. -/
def Pattern.classes : Pattern → List CharClass
  | one k => [k]
  | seq p q | alt p q => p.classes ++ q.classes
  | star p => p.classes
  | empty | boundary | start | stop => []

/-- The relation leads from every character of a class of the pattern to a character of this class. -/
def Pattern.IsKeptBy (p : Pattern) (R : Char → Char → Prop) : Prop :=
  ∀ k ∈ p.classes, ∀ c d, R c d → k.contains c = true → k.contains d = true

/-- **The second text follows the first**: place by place their characters are related, and where the
first has a boundary the second has one. -/
structure Text.Follows (R : Char → Char → Prop) (s t : Text) : Prop where
  related : List.Forall₂ R s t
  boundary : ∀ {u w u' w' : Text}, s = u ++ w → t = u' ++ w' → List.Forall₂ R u u' →
    List.Forall₂ R w w' → u.endsInWord ≠ w.startsInWord → u'.endsInWord ≠ w'.startsInWord

variable {R : Char → Char → Prop} {p : Pattern} {s t u v w : Text}

theorem exists_append_of_forall₂ {r : Text} (h : List.Forall₂ R (v ++ w) r) :
    ∃ v' w', r = v' ++ w' ∧ List.Forall₂ R v v' ∧ List.Forall₂ R w w' := by
  have hflip := h.flip
  refine ⟨r.take v.length, r.drop v.length, (List.take_append_drop _ r).symm, ?_, ?_⟩
  · exact (List.forall₂_take_append r v w hflip).flip
  · exact (List.forall₂_drop_append r v w hflip).flip

/-- **What is derived in a text is derived in a text that follows it**, at the place that corresponds. -/
theorem Derives.follow (hst : Text.Follows R s t) (h : Derives p u v w) (hp : p.IsKeptBy R)
    (hs : s = u ++ (v ++ w)) {u' r : Text} (ht : t = u' ++ r) (hu : List.Forall₂ R u u')
    (hr : List.Forall₂ R (v ++ w) r) : ∃ v' w', r = v' ++ w' ∧ List.Forall₂ R v v' ∧
      List.Forall₂ R w w' ∧ Derives p u' v' w' := by
  induction h generalizing u' r with
  | empty => exact ⟨[], r, rfl, .nil, hr, .empty⟩
  | @one k u w c hc =>
    obtain ⟨d, w', hcd, hw, rfl⟩ := List.forall₂_cons_left_iff.mp hr
    refine ⟨[d], w', rfl, .cons hcd .nil, hw, .one ?_⟩
    exact hp k (by simp [Pattern.classes]) c d hcd hc
  | @seq p q u v v₂ w left right ihl ihr =>
    have hpl : p.IsKeptBy R := fun k hk => hp k (List.mem_append_left _ hk)
    have hpr : q.IsKeptBy R := fun k hk => hp k (List.mem_append_right _ hk)
    rw [List.append_assoc] at hs hr
    obtain ⟨v', r, rfl, hv, hr, hl⟩ := ihl hpl hs ht hu hr
    have ht' : t = (u' ++ v') ++ r := by rw [ht, List.append_assoc]
    obtain ⟨v₂', w', rfl, hv₂, hw, hq⟩ := ihr hpr (by simp [hs]) ht' (List.rel_append hu hv) hr
    exact ⟨v' ++ v₂', w', by simp, List.rel_append hv hv₂, hw, .seq hl hq⟩
  | @altLeft p q u v w h ih =>
    obtain ⟨v', w', e, hv, hw, hd⟩ :=
      ih (fun k hk => hp k (List.mem_append_left _ hk)) hs ht hu hr
    exact ⟨v', w', e, hv, hw, .altLeft hd⟩
  | @altRight p q u v w h ih =>
    obtain ⟨v', w', e, hv, hw, hd⟩ :=
      ih (fun k hk => hp k (List.mem_append_right _ hk)) hs ht hu hr
    exact ⟨v', w', e, hv, hw, .altRight hd⟩
  | starNil => exact ⟨[], r, rfl, .nil, hr, .starNil⟩
  | @starCons p u v v₂ w left right ihl ihr =>
    rw [List.append_assoc] at hs hr
    obtain ⟨v', r, rfl, hv, hr, hl⟩ := ihl hp hs ht hu hr
    have ht' : t = (u' ++ v') ++ r := by rw [ht, List.append_assoc]
    obtain ⟨v₂', w', rfl, hv₂, hw, hq⟩ := ihr hp (by simp [hs]) ht' (List.rel_append hu hv) hr
    exact ⟨v' ++ v₂', w', by simp, List.rel_append hv hv₂, hw, .starCons hl hq⟩
  | @boundary u w hb =>
    refine ⟨[], r, rfl, .nil, hr, derives_boundary.mpr ⟨rfl, ?_⟩⟩
    exact hst.boundary hs ht hu hr (derives_boundary.mp (.boundary hb)).2
  | start =>
    obtain rfl := List.forall₂_nil_left_iff.mp hu
    exact ⟨[], r, rfl, .nil, hr, .start⟩
  | stop =>
    obtain rfl := List.forall₂_nil_left_iff.mp hr
    exact ⟨[], [], rfl, .nil, .nil, .stop⟩

/-- **A pattern that occurs in a text occurs in a text that follows it.** -/
theorem Pattern.OccursIn.follow (h : p.OccursIn s) (hst : Text.Follows R s t) (hp : p.IsKeptBy R) :
    p.OccursIn t := by
  obtain ⟨u, v, w, rfl, hd⟩ := h
  have hrel := hst.related
  rw [List.append_assoc] at hrel
  obtain ⟨u', r, rfl, hu, hr⟩ := exists_append_of_forall₂ hrel
  obtain ⟨v', w', rfl, -, -, hd'⟩ := hd.follow hst hp (List.append_assoc u v w) rfl hu hr
  exact ⟨u', v', w', (List.append_assoc u' v' w').symm, hd'⟩

end CommandVetting
