import CommandVetting.Proofs.Pattern.Context
import CommandVetting.Proofs.Text.Letters
import CommandVetting.Proofs.Text.Trim

/-!
# Spacing

Between the words of a line there are runs of white space. Two texts that differ in these runs only, in
their lengths and in the characters that they are made of, can be cut at the same places, as long as no
place inside a run is taken.

* `isSpacing`: white space other than the line feed;
* `Text.Respaced s t`: **every maximal run of spacing in `s` is replaced by some other run in `t`**;
* `Respaced.head?_map`, `Respaced.getLast?_map`, `Respaced.exists_of_mem`: what the two texts have in
  common at their ends and within;
* `Text.IsSeam`, **`Respaced.split`**: a text is cut where no run is cut;
* `Respaced.trim`: trimming keeps the relation.
-/

namespace CommandVetting

/-- White space within a line. -/
def isSpacing (c : Char) : Bool := isBlank c && c != '\n'

theorem isBlank_of_isSpacing {c : Char} (h : isSpacing c = true) : isBlank c = true :=
  (Bool.and_eq_true_iff.mp h).1

theorem isPadding_of_isSpacing {c : Char} (h : isSpacing c = true) : isPadding c = true :=
  isPadding_of_isBlank (isBlank_of_isSpacing h)

theorem isSpacing_of_not_isPadding {c : Char} (h : isPadding c = false) : isSpacing c = false := by
  rw [← Bool.not_eq_true] at h ⊢
  exact fun hc => h (isPadding_of_isSpacing hc)

theorem isAsciiWord_of_isSpacing {c : Char} (h : isSpacing c = true) : isAsciiWord c = false :=
  isAsciiWord_of_isPadding (isPadding_of_isSpacing h)

theorem isSpacing_of_isAsciiWord {c : Char} (h : isAsciiWord c = true) : isSpacing c = false :=
  isSpacing_of_not_isPadding (isPadding_of_isAsciiWord h)

namespace Text

/-- The text is made of spacing, and not empty. -/
structure IsSpacingRun (a : Text) : Prop where
  ne_nil : a ≠ []
  all_isSpacing : ∀ c ∈ a, isSpacing c = true

/-- **The second text is the first with other spacing**: every maximal run of spacing is replaced by a run
of any length and kind. -/
inductive Respaced : Text → Text → Prop where
  | nil : Respaced [] []
  | keep {c : Char} {s t : Text} (hc : isSpacing c = false) (rest : Respaced s t) :
    Respaced (c :: s) (c :: t)
  | run {a b s t : Text} (ha : IsSpacingRun a) (hb : IsSpacingRun b)
    (hs : ∀ c ∈ s.head?, isSpacing c = false) (rest : Respaced s t) : Respaced (a ++ s) (b ++ t)

/-- The place between the two texts is not inside a run of spacing. -/
def IsSeam (u w : Text) : Prop :=
  ∀ c ∈ u.getLast?, ∀ d ∈ w.head?, isSpacing c = true → isSpacing d = false

variable {a b s t u v w : Text}

/-! ## What respaced texts have in common -/

theorem forall_mem_of_map_eq {α β : Type} {o o' : Option α} {f : α → β} {b : β}
    (h : o.map f = o'.map f) (ho : ∀ c ∈ o, f c = b) : ∀ d ∈ o', f d = b := by
  intro d hd
  rw [Option.mem_def.mp hd] at h
  obtain ⟨c, hc, hcd⟩ := Option.map_eq_some_iff.mp h
  rw [← hcd]
  exact ho c hc

namespace Respaced

section Ends

variable {β : Type} {f : Char → β}

/-- What is the same for all spacing is the same at the start of the two texts. -/
theorem head?_map (h : Respaced s t) (hf : ∀ c d, isSpacing c = true → isSpacing d = true → f c = f d) :
    s.head?.map f = t.head?.map f := by
  cases h with
  | nil => rfl
  | keep => rfl
  | @run a b s t ha hb hs rest =>
    obtain ⟨c, a, rfl⟩ := List.exists_cons_of_ne_nil ha.ne_nil
    obtain ⟨d, b, rfl⟩ := List.exists_cons_of_ne_nil hb.ne_nil
    exact congrArg some (hf c d (ha.all_isSpacing c List.mem_cons_self)
      (hb.all_isSpacing d List.mem_cons_self))

/-- What is the same for all spacing is the same at the end of the two texts. -/
theorem getLast?_map (h : Respaced s t)
    (hf : ∀ c d, isSpacing c = true → isSpacing d = true → f c = f d) :
    s.getLast?.map f = t.getLast?.map f := by
  induction h with
  | nil => rfl
  | @keep c s t hc rest ih =>
    rw [← List.singleton_append, ← List.singleton_append (l := t), List.getLast?_append,
      List.getLast?_append, Option.map_or, Option.map_or, ih]
  | @run a b s t ha hb hs rest ih =>
    have hlast : a.getLast?.map f = b.getLast?.map f := by
      rw [List.getLast?_eq_some_getLast ha.ne_nil, List.getLast?_eq_some_getLast hb.ne_nil]
      exact congrArg some (hf _ _ (ha.all_isSpacing _ (List.getLast_mem _))
        (hb.all_isSpacing _ (List.getLast_mem _)))
    rw [List.getLast?_append, List.getLast?_append, Option.map_or, Option.map_or, ih, hlast]

end Ends

theorem exists_of_mem (h : Respaced s t) :
    ∀ d ∈ t, ∃ c ∈ s, c = d ∨ isSpacing c = true ∧ isSpacing d = true := by
  induction h with
  | nil => simp
  | @keep c s t hc rest ih =>
    intro d hd
    rcases List.mem_cons.mp hd with rfl | hd
    · exact ⟨d, List.mem_cons_self, .inl rfl⟩
    · obtain ⟨e, he, hed⟩ := ih d hd
      exact ⟨e, List.mem_cons_of_mem c he, hed⟩
  | @run a b s t ha hb hs rest ih =>
    intro d hd
    rcases List.mem_append.mp hd with hd | hd
    · obtain ⟨c, hc⟩ := List.exists_mem_of_ne_nil a ha.ne_nil
      exact ⟨c, List.mem_append_left s hc, .inr ⟨ha.all_isSpacing c hc, hb.all_isSpacing d hd⟩⟩
    · obtain ⟨e, he, hed⟩ := ih d hd
      exact ⟨e, List.mem_append_right a he, hed⟩

theorem symm (h : Respaced s t) : Respaced t s := by
  induction h with
  | nil => exact .nil
  | keep hc rest ih => exact .keep hc ih
  | @run a b s t ha hb hs rest ih =>
    have hmap := rest.head?_map (f := isSpacing) fun c d hc hd => by rw [hc, hd]
    exact .run hb ha (forall_mem_of_map_eq hmap hs) ih

theorem eq_nil_iff (h : Respaced s t) : s = [] ↔ t = [] := by
  have hmap := h.head?_map (f := fun _ => ()) fun _ _ _ _ => rfl
  rw [← List.head?_eq_none_iff, ← List.head?_eq_none_iff, ← Option.map_eq_none_iff (f := fun _ => ()),
    hmap, Option.map_eq_none_iff]

theorem keepAll (hw : w.all (fun c => !isSpacing c) = true) (h : Respaced s t) :
    Respaced (w ++ s) (w ++ t) := by
  induction w with
  | nil => exact h
  | cons c w ih =>
    rw [List.all_cons, Bool.and_eq_true, Bool.not_eq_true'] at hw
    exact .keep hw.1 (ih hw.2)

theorem replaceRun (ha : a ≠ []) (hb : b ≠ []) (hab : (a ++ b).all isSpacing = true)
    (hs : s.head?.all (fun c => !isSpacing c) = true) (h : Respaced s t) :
    Respaced (a ++ s) (b ++ t) := by
  rw [List.all_append, Bool.and_eq_true, List.all_eq_true, List.all_eq_true] at hab
  refine .run ⟨ha, hab.1⟩ ⟨hb, hab.2⟩ (fun c hc => ?_) h
  rw [Option.mem_def.mp hc] at hs
  exact (Bool.not_eq_true' _).mp hs

/-- A text without spacing stays as it is. -/
theorem eq_of_no_spacing (h : Respaced s t) (hs : ∀ c ∈ s, isSpacing c = false) : t = s := by
  induction h with
  | nil => rfl
  | keep _ _ ih => rw [ih fun d hd => hs d (List.mem_cons_of_mem _ hd)]
  | @run a b s t ha =>
    obtain ⟨c, hc⟩ := List.exists_mem_of_ne_nil a ha.ne_nil
    have hc' := hs c (List.mem_append_left s hc)
    rw [ha.all_isSpacing c hc] at hc'
    cases hc'

/-! ## The ends of words -/

theorem startsInWord_append (h : Respaced v u) {w w' : Text} (hw : w.startsInWord = w'.startsInWord) :
    (v ++ w).startsInWord = (u ++ w').startsInWord := by
  have hmap := h.head?_map (f := isAsciiWord) fun c d hc hd => by
    rw [isAsciiWord_of_isSpacing hc, isAsciiWord_of_isSpacing hd]
  have hhead : (v ++ w').head?.map isAsciiWord = (u ++ w').head?.map isAsciiWord := by
    rw [List.head?_append, List.head?_append, Option.map_or, Option.map_or, hmap]
  calc (v ++ w).startsInWord = (v ++ w').startsInWord := startsInWord_append_congr hw
    _ = (u ++ w').startsInWord := by
      simpa [Text.startsInWord, Option.any_map] using congrArg (Option.any id) hhead

theorem endsInWord_append {u u' v v' : Text} (hu : u.endsInWord = u'.endsInWord) (h : Respaced v v') :
    (u ++ v).endsInWord = (u' ++ v').endsInWord := by
  have hmap := h.getLast?_map (f := isAsciiWord) fun c d hc hd => by
    rw [isAsciiWord_of_isSpacing hc, isAsciiWord_of_isSpacing hd]
  have hlast : (u' ++ v).getLast?.map isAsciiWord = (u' ++ v').getLast?.map isAsciiWord := by
    rw [List.getLast?_append, List.getLast?_append, Option.map_or, Option.map_or, hmap]
  calc (u ++ v).endsInWord = (u' ++ v).endsInWord := endsInWord_append_congr hu
    _ = (u' ++ v').endsInWord := by
      simpa [Text.endsInWord, Option.any_map] using congrArg (Option.any id) hlast

theorem startsInWord_eq (h : Respaced s t) : s.startsInWord = t.startsInWord := by
  simpa using h.startsInWord_append (w := []) rfl

theorem endsInWord_eq (h : Respaced s t) : s.endsInWord = t.endsInWord :=
  Respaced.endsInWord_append (u := []) rfl h

end Respaced

/-! ## Seams -/

theorem isSeam_of_head? (h : ∀ d ∈ w.head?, isSpacing d = false) : IsSeam u w :=
  fun _ _ d hd _ => h d hd

theorem isSeam_of_getLast? (h : ∀ c ∈ u.getLast?, isSpacing c = false) : IsSeam u w := by
  intro c hc d _ hsp
  rw [h c hc] at hsp
  cases hsp

/-- A part of a text has the seams of the text. -/
theorem IsSeam.of_append (h : IsSeam (a ++ u) (w ++ b)) : IsSeam u w := by
  intro c hc d hd
  refine h c ?_ d ?_
  · rw [List.getLast?_append, Option.mem_def.mp hc]
    rfl
  · rw [List.head?_append, Option.mem_def.mp hd]
    rfl

/-- **A respaced text can be cut where the text is cut**, at a place that is not inside a run. -/
theorem Respaced.split (h : Respaced (u ++ w) t) (hseam : IsSeam u w) :
    ∃ u' w', t = u' ++ w' ∧ Respaced u u' ∧ Respaced w w' := by
  generalize hx : u ++ w = x at h
  induction h generalizing u with
  | nil =>
    obtain ⟨rfl, rfl⟩ := List.append_eq_nil_iff.mp hx
    exact ⟨[], [], rfl, .nil, .nil⟩
  | @keep c s t hc rest ih =>
    cases u with
    | nil =>
      obtain rfl : w = c :: s := hx
      exact ⟨[], c :: t, rfl, .nil, .keep hc rest⟩
    | cons e u =>
      obtain ⟨rfl, rfl⟩ := List.cons.inj hx
      have hseam' : IsSeam u w := IsSeam.of_append (a := [e]) (b := []) (by simpa using hseam)
      obtain ⟨u', w', rfl, hu, hw⟩ := ih hseam' rfl
      exact ⟨e :: u', w', rfl, .keep hc hu, hw⟩
  | @run a b s t ha hb hs rest ih =>
    rcases List.append_eq_append_iff.mp hx with ⟨a₂, rfl, rfl⟩ | ⟨u₁, rfl, rfl⟩
    · -- The place is in the run, and so at one of its ends.
      rcases List.eq_nil_or_concat' u with rfl | ⟨u₀, c, rfl⟩
      · exact ⟨[], b ++ t, rfl, .nil, .run ha hb hs rest⟩
      · cases a₂ with
        | nil =>
          rw [List.append_nil] at ha
          refine ⟨b, t, rfl, ?_, rest⟩
          have hrun := Respaced.run ha hb (s := []) (by simp) .nil
          rwa [List.append_nil, List.append_nil] at hrun
        | cons d a₂ =>
          have hd := hseam c (by simp) d (by simp) (ha.all_isSpacing c (by simp))
          rw [ha.all_isSpacing d (by simp)] at hd
          cases hd
    · have hseam' : IsSeam u₁ w := IsSeam.of_append (b := []) (by simpa using hseam)
      obtain ⟨u', w', rfl, hu, hw⟩ := ih hseam' rfl
      refine ⟨b ++ u', w', (List.append_assoc ..).symm, .run ha hb (fun c hc => hs c ?_) hu, hw⟩
      rw [List.head?_append, Option.mem_def.mp hc]
      rfl

theorem Respaced.forall_isPadding (h : Respaced s t) (hs : ∀ c ∈ s, isPadding c = true) :
    ∀ d ∈ t, isPadding d = true := by
  intro d hd
  obtain ⟨c, hc, rfl | ⟨-, hsp⟩⟩ := h.exists_of_mem d hd
  · exact hs c hc
  · exact isPadding_of_isSpacing hsp

/-- **Trimming keeps the relation.** -/
theorem Respaced.trim (h : Respaced s t) : Respaced s.trim t.trim := by
  obtain ⟨a, b, e, ha, hb, hhead, hlast⟩ := trims_trim s
  generalize s.trim = m at e hhead hlast ⊢
  by_cases hm : m = []
  · -- Nothing but padding, in both texts.
    have hs : ∀ c ∈ s, isPadding c = true := by
      intro c hc
      rw [e, hm, List.append_nil, List.mem_append] at hc
      exact hc.elim (ha c) (hb c)
    have ht : t.Trims [] := ⟨t, [], by simp, h.forall_isPadding hs, by simp, by simp, by simp⟩
    rw [hm, ← trims_iff.mp ht]
    exact .nil
  · rw [e, List.append_assoc] at h
    have hsame : ∀ c d, isSpacing c = true → isSpacing d = true → isPadding c = isPadding d :=
      fun c d hc hd => by rw [isPadding_of_isSpacing hc, isPadding_of_isSpacing hd]
    have hleft : IsSeam a (m ++ b) := by
      refine isSeam_of_head? fun d hd => isSpacing_of_not_isPadding (hhead d ?_)
      rwa [List.head?_append_of_ne_nil m hm] at hd
    have hright : IsSeam m b := isSeam_of_getLast? fun c hc => isSpacing_of_not_isPadding (hlast c hc)
    obtain ⟨a', r, rfl, hra, hr⟩ := h.split hleft
    obtain ⟨m', b', rfl, hrm, hrb⟩ := hr.split hright
    have ht : (a' ++ (m' ++ b')).Trims m' := by
      refine ⟨a', b', by simp, hra.forall_isPadding ha, hrb.forall_isPadding hb, ?_, ?_⟩
      · exact forall_mem_of_map_eq (hrm.head?_map hsame) hhead
      · exact forall_mem_of_map_eq (hrm.getLast?_map hsame) hlast
    rwa [← trims_iff.mp ht]

end Text

end CommandVetting
