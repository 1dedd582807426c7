import Mathlib.Data.List.Basic
import Mathlib.Data.List.Forall2
import CommandVetting.Proofs.Text.Letters

/-!
# Trimming

* `Text.Trims s t`: the text `t` is `s` without the padding at its two ends;
* **`trims_iff`: trimming finds the one text with this property**;
* `trim_append_append`: a part of a text that is trimmed already stays whole;
* `trim_padding`: padding around a text makes no difference;
* `forall₂_trim`: texts that are related character by character stay so;
* `exists_append_of_head?`, `exists_append_of_getLast?`: what starts, or ends, on something else than
  padding does not reach into the padding around a text.
-/

namespace CommandVetting.Text

/-- The text `t` is what remains of `s` without the padding at its two ends. -/
def Trims (s t : Text) : Prop :=
  ∃ a b, s = a ++ t ++ b ∧ (∀ c ∈ a, isPadding c = true) ∧ (∀ c ∈ b, isPadding c = true) ∧
    (∀ c ∈ t.head?, isPadding c = false) ∧ ∀ c ∈ t.getLast?, isPadding c = false

/-! ## The start -/

theorem trimStart_append {a t : Text} (ha : ∀ c ∈ a, isPadding c = true) :
    (a ++ t).trimStart = t.trimStart := by
  rw [trimStart, List.dropWhile_append_of_pos ha, trimStart]

theorem trimStart_eq_nil {a : Text} (ha : ∀ c ∈ a, isPadding c = true) : a.trimStart = [] := by
  have h := trimStart_append (t := []) ha
  rwa [List.append_nil] at h

theorem trimStart_eq_self {t : Text} (h : ∀ c ∈ t.head?, isPadding c = false) :
    t.trimStart = t := by
  cases t with
  | nil => rfl
  | cons c t => exact List.dropWhile_cons_of_neg (by rw [h c rfl]; decide)

theorem trimStart_append_of_head? {a t : Text} (h : ∀ c ∈ t.head?, isPadding c = false) :
    (a ++ t).trimStart = a.trimStart ++ t := by
  rw [trimStart, List.dropWhile_append, trimStart]
  split_ifs with he
  · rw [List.isEmpty_iff.mp he, List.nil_append]
    exact trimStart_eq_self h
  · rfl

theorem exists_trimStart (s : Text) : ∃ a, s = a ++ s.trimStart ∧ (∀ c ∈ a, isPadding c = true) ∧
    ∀ c ∈ s.trimStart.head?, isPadding c = false :=
  ⟨s.takeWhile isPadding, List.takeWhile_append_dropWhile.symm, fun _ hc => List.mem_takeWhile_imp hc,
    head?_dropWhile⟩

theorem getLast?_of_trimStart {s : Text} {c : Char} (h : c ∈ s.trimStart.getLast?) :
    c ∈ s.getLast? := by
  obtain ⟨a, e, -, -⟩ := exists_trimStart s
  rw [e, List.getLast?_append, Option.mem_def.mp h]
  rfl

/-! ## The end -/

theorem trimEnd_eq_reverse (t : Text) : t.trimEnd = (trimStart t.reverse).reverse := rfl

theorem trimEnd_append {t b : Text} (hb : ∀ c ∈ b, isPadding c = true) :
    (t ++ b).trimEnd = t.trimEnd := by
  have hr : ∀ c ∈ b.reverse, isPadding c = true := fun c hc => hb c (List.mem_reverse.mp hc)
  rw [trimEnd_eq_reverse, List.reverse_append, trimStart_append hr, ← trimEnd_eq_reverse]

theorem trimEnd_eq_self {t : Text} (h : ∀ c ∈ t.getLast?, isPadding c = false) :
    t.trimEnd = t := by
  rw [← List.head?_reverse] at h
  rw [trimEnd_eq_reverse, trimStart_eq_self h, List.reverse_reverse]

theorem trimEnd_append_of_getLast? {t b : Text} (h : ∀ c ∈ t.getLast?, isPadding c = false) :
    (t ++ b).trimEnd = t ++ b.trimEnd := by
  rw [← List.head?_reverse] at h
  rw [trimEnd_eq_reverse, List.reverse_append, trimStart_append_of_head? h, List.reverse_append,
    List.reverse_reverse, ← trimEnd_eq_reverse]

theorem exists_trimEnd (s : Text) : ∃ b, s = s.trimEnd ++ b ∧ (∀ c ∈ b, isPadding c = true) ∧
    ∀ c ∈ s.trimEnd.getLast?, isPadding c = false := by
  obtain ⟨a, e, ha, hh⟩ := exists_trimStart s.reverse
  refine ⟨a.reverse, ?_, fun c hc => ha c (List.mem_reverse.mp hc), ?_⟩
  · rw [trimEnd_eq_reverse, ← List.reverse_append, ← e, List.reverse_reverse]
  · rwa [trimEnd_eq_reverse, List.getLast?_reverse]

theorem head?_of_trimEnd {s : Text} {c : Char} (h : c ∈ s.trimEnd.head?) : c ∈ s.head? := by
  obtain ⟨b, e, -, -⟩ := exists_trimEnd s
  rw [e, List.head?_append, Option.mem_def.mp h]
  rfl

/-! ## Both ends -/

theorem trims_trim (s : Text) : s.Trims s.trim := by
  obtain ⟨a, ea, ha, hh⟩ := exists_trimStart s
  obtain ⟨b, eb, hb, hl⟩ := exists_trimEnd s.trimStart
  refine ⟨a, b, ?_, ha, hb, fun c hc => hh c (head?_of_trimEnd hc), hl⟩
  rw [List.append_assoc, trim, ← eb, ← ea]

/-- **Trimming finds the one text** that remains without the padding at the two ends. -/
theorem trims_iff {s t : Text} : s.Trims t ↔ t = s.trim := by
  constructor
  · rintro ⟨a, b, rfl, ha, hb, hh, hl⟩
    rw [List.append_assoc, trim, trimStart_append ha]
    by_cases ht : t = []
    · rw [ht, List.nil_append, trimStart_eq_nil hb]
      rfl
    · have hh' : ∀ c ∈ (t ++ b).head?, isPadding c = false := by
        rwa [List.head?_append_of_ne_nil t ht]
      rw [trimStart_eq_self hh', trimEnd_append hb, trimEnd_eq_self hl]
  · rintro rfl
    exact trims_trim s

/-- **A part that is trimmed already stays whole**, and so does all between it and the first and last
characters that are no padding. -/
theorem trim_append_append {p s q : Text} (hs : s ≠ []) (hh : ∀ c ∈ s.head?, isPadding c = false)
    (hl : ∀ c ∈ s.getLast?, isPadding c = false) :
    (p ++ s ++ q).trim = p.trimStart ++ s ++ q.trimEnd := by
  have hh' : ∀ c ∈ (s ++ q).head?, isPadding c = false := by
    rwa [List.head?_append_of_ne_nil s hs]
  have hl' : ∀ c ∈ (p.trimStart ++ s).getLast?, isPadding c = false := by
    rwa [List.getLast?_append_of_ne_nil _ hs]
  rw [trim, List.append_assoc, trimStart_append_of_head? hh', ← List.append_assoc,
    trimEnd_append_of_getLast? hl']

/-- **Padding around a text makes no difference.** -/
theorem trim_padding {p s q : Text} (hp : ∀ c ∈ p, isPadding c = true)
    (hq : ∀ c ∈ q, isPadding c = true) : (p ++ s ++ q).trim = s.trim := by
  obtain ⟨a, b, e, ha, hb, hh, hl⟩ := trims_trim s
  refine (trims_iff.mp ⟨p ++ a, b ++ q, ?_, fun c hc => ?_, fun c hc => ?_, hh, hl⟩).symm
  · conv_lhs => rw [e]
    simp only [List.append_assoc]
  · exact (List.mem_append.mp hc).elim (hp c) (ha c)
  · exact (List.mem_append.mp hc).elim (hb c) (hq c)

/-- A text that has no padding at its ends is left as it is. -/
theorem trim_eq_self {t : Text} (hh : ∀ c ∈ t.head?, isPadding c = false)
    (hl : ∀ c ∈ t.getLast?, isPadding c = false) : t.trim = t := by
  rw [trim, trimStart_eq_self hh, trimEnd_eq_self hl]

theorem trim_trim (s : Text) : s.trim.trim = s.trim := by
  obtain ⟨-, -, -, -, -, hh, hl⟩ := trims_trim s
  exact trim_eq_self hh hl

/-! ## Texts of the same shape -/

section Related

variable {R : Char → Char → Prop} {s t : Text}

theorem forall₂_trimStart (hR : ∀ c d, R c d → isPadding c = isPadding d) (h : List.Forall₂ R s t) :
    List.Forall₂ R s.trimStart t.trimStart := by
  induction h with
  | nil => exact .nil
  | @cons c d s t hcd h ih =>
    rw [trimStart, trimStart, List.dropWhile_cons, List.dropWhile_cons, hR c d hcd]
    split_ifs with hd
    · exact ih
    · exact .cons hcd h

theorem forall₂_trim (hR : ∀ c d, R c d → isPadding c = isPadding d) (h : List.Forall₂ R s t) :
    List.Forall₂ R s.trim t.trim := by
  have hstart := List.rel_reverse (forall₂_trimStart hR h)
  rw [trim, trim, trimEnd_eq_reverse, trimEnd_eq_reverse]
  exact List.rel_reverse (forall₂_trimStart hR hstart)

end Related

/-! ## Parts that padding does not touch -/

/-- What starts on something else than padding does not reach into the padding before a text. -/
theorem exists_append_of_head? {a s u r : Text} (e : a ++ s = u ++ r)
    (ha : ∀ c ∈ a, isPadding c = true) (hr : ∃ c ∈ r.head?, isPadding c = false) :
    ∃ u', u = a ++ u' ∧ s = u' ++ r := by
  rcases List.append_eq_append_iff.mp e with ⟨u', hu, hs⟩ | ⟨a', ha', hr'⟩
  · exact ⟨u', hu, hs⟩
  · cases a' with
    | nil => exact ⟨[], by rw [ha', List.append_nil, List.append_nil], hr'.symm⟩
    | cons x a' =>
      obtain ⟨c, hc, hp⟩ := hr
      obtain rfl : x = c := by simpa [hr'] using hc
      rw [ha x (by simp [ha'])] at hp
      cases hp

theorem exists_append_of_getLast? {s b l w : Text} (e : s ++ b = l ++ w)
    (hb : ∀ c ∈ b, isPadding c = true) (hl : ∃ c ∈ l.getLast?, isPadding c = false) :
    ∃ w', w = w' ++ b ∧ s = l ++ w' := by
  have e' : b.reverse ++ s.reverse = w.reverse ++ l.reverse := by
    rw [← List.reverse_append, e, List.reverse_append]
  have hb' : ∀ c ∈ b.reverse, isPadding c = true := fun c hc => hb c (List.mem_reverse.mp hc)
  rw [← List.head?_reverse] at hl
  obtain ⟨w', hw, hs⟩ := exists_append_of_head? e' hb' hl
  refine ⟨w'.reverse, ?_, ?_⟩
  · rw [← List.reverse_reverse w, hw, List.reverse_append, List.reverse_reverse]
  · rw [← List.reverse_reverse s, hs, List.reverse_append, List.reverse_reverse]

/-- **What stands around the trimmed text is padding**, unless nothing remains. -/
theorem isPadding_around_trim {s a b : Text} (e : s = a ++ s.trim ++ b) (hs : s.trim ≠ []) :
    (∀ c ∈ a, isPadding c = true) ∧ ∀ c ∈ b, isPadding c = true := by
  obtain ⟨a', b', e', ha', hb', hh, hl⟩ := trims_trim s
  generalize s.trim = t at e e' hs hh hl
  have hfirst : ∃ c ∈ (t ++ b).head?, isPadding c = false := by
    rw [List.head?_append_of_ne_nil t hs]
    exact ⟨_, List.head?_eq_some_head hs, hh _ (List.head?_eq_some_head hs)⟩
  have e₁ : a' ++ (t ++ b') = a ++ (t ++ b) := by
    rw [← List.append_assoc, ← e', e, List.append_assoc]
  obtain ⟨u, rfl, e₂⟩ := exists_append_of_head? e₁ ha' hfirst
  rw [← List.append_assoc] at e₂
  have hlast : ∃ c ∈ (u ++ t).getLast?, isPadding c = false := by
    rw [List.getLast?_append_of_ne_nil u hs]
    exact ⟨_, List.getLast?_eq_some_getLast hs, hl _ (List.getLast?_eq_some_getLast hs)⟩
  obtain ⟨w, rfl, e₃⟩ := exists_append_of_getLast? e₂ hb' hlast
  -- Both cuts leave the same text, so that nothing stands between them.
  have hlen := congrArg List.length e₃
  simp only [List.length_append] at hlen
  obtain rfl : u = [] := List.length_eq_zero_iff.mp (by omega)
  obtain rfl : w = [] := List.length_eq_zero_iff.mp (by omega)
  rw [List.append_nil, List.nil_append]
  exact ⟨ha', hb'⟩

end CommandVetting.Text
