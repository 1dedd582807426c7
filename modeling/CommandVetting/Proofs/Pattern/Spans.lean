import CommandVetting.Pattern.Basic

/-!
# The spans of a row

A row of patterns derives the spans of its members one after the other, so that a span can be cut
where a part of the row ends.

* `derives_ofSeq_cons`: the first pattern of a row and the rest;
* **`derives_ofSeq_append`**: the two parts of a row;
* `derives_star_one`, `derives_plus_one`: a class that is repeated.
-/

namespace CommandVetting

/-- A row derives what its first pattern and the rest of the row derive one after the other. -/
theorem derives_ofSeq_cons {p : Pattern} {ps : List Pattern} {u v w : Text} :
    Derives (.ofSeq (p :: ps)) u v w ↔ Derives (p.seq (.ofSeq ps)) u v w := by
  cases ps with
  | nil =>
    constructor
    · intro h
      have h' : Derives (p.seq .empty) u (v ++ []) w := .seq h .empty
      rwa [List.append_nil] at h'
    · intro h
      cases h with
      | seq left right =>
        cases right
        rw [List.append_nil]
        exact left
  | cons q ps => rfl

/-- **A row of two parts derives what the parts derive one after the other.** -/
theorem derives_ofSeq_append {ps qs : List Pattern} {u v w : Text} :
    Derives (.ofSeq (ps ++ qs)) u v w ↔ ∃ v₁ v₂, v = v₁ ++ v₂ ∧
      Derives (.ofSeq ps) u v₁ (v₂ ++ w) ∧ Derives (.ofSeq qs) (u ++ v₁) v₂ w := by
  induction ps generalizing u v with
  | nil =>
    constructor
    · intro h
      exact ⟨[], v, rfl, .empty, by rwa [List.append_nil]⟩
    · rintro ⟨v₁, v₂, rfl, h₁, h₂⟩
      cases h₁
      rwa [List.append_nil] at h₂
  | cons p ps ih =>
    rw [List.cons_append, derives_ofSeq_cons]
    constructor
    · intro h
      cases h with
      | seq left right =>
        obtain ⟨v₁, v₂, rfl, h₁, h₂⟩ := ih.mp right
        rw [List.append_assoc] at left
        refine ⟨_, v₂, (List.append_assoc _ v₁ v₂).symm, derives_ofSeq_cons.mpr (.seq left h₁), ?_⟩
        rwa [← List.append_assoc]
    · rintro ⟨v₁, v₂, rfl, h₁, h₂⟩
      cases derives_ofSeq_cons.mp h₁ with
      | @seq _ _ _ x y _ left right =>
        rw [List.append_assoc]
        rw [← List.append_assoc] at h₂
        refine .seq ?_ (ih.mpr ⟨y, v₂, rfl, right, h₂⟩)
        rwa [List.append_assoc]

/-- The repetition of a class derives the texts of that class. -/
theorem derives_star_one {k : CharClass} {u v w : Text} :
    Derives (.star (.one k)) u v w ↔ ∀ c ∈ v, k.contains c = true := by
  constructor
  · intro h
    generalize hp : Pattern.star (.one k) = p at h
    induction h with
    | starNil => simp
    | starCons left right ihl ihr =>
      obtain rfl := Pattern.star.inj hp
      cases left with
      | one hc => simpa [hc] using ihr rfl
    | _ => cases hp
  · intro h
    induction v generalizing u with
    | nil => exact .starNil
    | cons c v ih =>
      have hv : ∀ d ∈ v, k.contains d = true := fun d hd => h d (List.mem_cons_of_mem c hd)
      exact .starCons (v := [c]) (.one (h c List.mem_cons_self)) (ih hv)

theorem derives_plus_one {k : CharClass} {u v w : Text} :
    Derives (.plus (.one k)) u v w ↔ v ≠ [] ∧ ∀ c ∈ v, k.contains c = true := by
  constructor
  · intro h
    cases h with
    | seq left right =>
      cases left with
      | one hc => exact ⟨by simp, by simpa [hc] using derives_star_one.mp right⟩
  · rintro ⟨hv, h⟩
    cases v with
    | nil => exact absurd rfl hv
    | cons c v =>
      have hrest : ∀ d ∈ v, k.contains d = true := fun d hd => h d (List.mem_cons_of_mem c hd)
      exact .seq (v := [c]) (.one (h c List.mem_cons_self)) (derives_star_one.mpr hrest)

end CommandVetting
