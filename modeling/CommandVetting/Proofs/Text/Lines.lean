import Mathlib.Data.List.Basic
import Mathlib.Tactic.Common
import CommandVetting.Text.Lines

/-!
# Pieces and lines

A list has no separator, or it can be cut at its first one. Facts about pieces and lines are proved
by going from one separator to the next.

* `pieces_eq_splitOn`: the pieces are those of the standard library;
* `cut_induction`: from one separator to the next;
* **`mem_splitOn_iff`: a piece reaches from a separator, or an end, to the next**;
* `exists_notMem_append`, `exists_append_notMem`: what lies before the first separator, and behind
  the last; `append_cons_inj`: **the last separator** cuts a list in one way;
* `splitOn_flatMap`, `count_flatMap`: pieces with a separator behind each;
* `Text.lines_append`, `Text.lines_flatMap`: the lines of texts that are put together;
* `Text.HasLines t ls`: what the lines of a text are, without an algorithm;
* **`Text.hasLines_iff`: a text has exactly one list of lines**.
-/

namespace CommandVetting

/-! ## Pieces -/

section Pieces

variable {α : Type} [BEq α] {sep : α} {l p : List α}

theorem pieces_cons (sep a : α) (l : List α) : pieces sep (a :: l) =
    if a == sep then [] :: pieces sep l
    else match pieces sep l with
      | [] => [[a]]
      | p :: ps => (a :: p) :: ps := rfl

/-- **The pieces are those of the standard library.** -/
theorem pieces_eq_splitOn (sep : α) (l : List α) : pieces sep l = l.splitOn sep := by
  induction l with
  | nil => rfl
  | cons a l ih =>
    rw [pieces_cons, ih, List.splitOn_cons_eq_if_modifyHead]
    have hne : l.splitOn sep ≠ [] := List.splitOn_ne_nil sep l
    cases hs : l.splitOn sep with
    | nil => exact absurd hs hne
    | cons p ps => rfl

variable [LawfulBEq α]

/-- From one separator to the next. -/
theorem cut_induction (sep : α) {motive : List α → Prop}
    (piece : ∀ l, sep ∉ l → motive l)
    (cut : ∀ l r, sep ∉ l → motive r → motive (l ++ sep :: r)) (l : List α) : motive l := by
  induction hn : l.length using Nat.strongRecOn generalizing l with
  | _ n ih =>
    by_cases h : sep ∈ l
    · obtain ⟨a, r, rfl, ha⟩ := List.eq_append_cons_of_mem h
      have hr : r.length < n := by simp at hn; omega
      exact cut a r ha (ih _ hr r rfl)
    · exact piece l h

/-- **A piece reaches from a separator, or an end, to the next.** -/
theorem mem_splitOn_iff : p ∈ l.splitOn sep ↔ sep ∉ p ∧ ∃ a b, l = a ++ p ++ b ∧
    (∀ c ∈ a.getLast?, c = sep) ∧ ∀ c ∈ b.head?, c = sep := by
  constructor
  · induction l using cut_induction sep with
    | piece l h =>
      intro hp
      rw [List.splitOn_eq_singleton h, List.mem_singleton] at hp
      subst hp
      exact ⟨h, [], [], by simp, by simp, by simp⟩
    | cut l r h ih =>
      intro hp
      rw [List.splitOn_append_cons_self_of_not_mem h, List.mem_cons] at hp
      rcases hp with rfl | hp
      · exact ⟨h, [], sep :: r, by simp, by simp, by simp⟩
      · obtain ⟨hs, a, b, rfl, ha, hb⟩ := ih hp
        refine ⟨hs, l ++ sep :: a, b, by simp, fun c hc => ?_, hb⟩
        rw [List.getLast?_append, List.getLast?_cons] at hc
        cases hl : a.getLast? with
        | none => simp [hl] at hc; exact hc.symm
        | some d => exact ha c (by simpa [hl] using hc)
  · rintro ⟨hs, a, b, rfl, ha, hb⟩
    have hright : p ∈ (p ++ b).splitOn sep := by
      cases b with
      | nil => rw [List.append_nil, List.splitOn_eq_singleton hs, List.mem_singleton]
      | cons c b =>
        obtain rfl := hb c rfl
        rw [List.splitOn_append_cons_self_of_not_mem hs]
        exact List.mem_cons_self
    rcases List.eq_nil_or_concat' a with rfl | ⟨a, c, rfl⟩
    · exact hright
    · obtain rfl := ha c (by simp)
      rw [List.append_assoc, List.append_assoc, List.singleton_append,
        List.splitOn_append_cons_self]
      exact List.mem_append_right _ hright

/-- The part of a list before its first separator. -/
theorem exists_notMem_append (sep : α) (l : List α) :
    ∃ p b, l = p ++ b ∧ sep ∉ p ∧ ∀ c ∈ b.head?, c = sep := by
  by_cases h : sep ∈ l
  · obtain ⟨p, r, rfl, hp⟩ := List.eq_append_cons_of_mem h
    exact ⟨p, sep :: r, rfl, hp, by simp⟩
  · exact ⟨l, [], by simp, h, by simp⟩

/-- The part of a list behind its last separator. -/
theorem exists_append_notMem (sep : α) (l : List α) :
    ∃ a p, l = a ++ p ∧ sep ∉ p ∧ ∀ c ∈ a.getLast?, c = sep := by
  obtain ⟨p, b, e, hp, hb⟩ := exists_notMem_append sep l.reverse
  refine ⟨b.reverse, p.reverse, ?_, by simpa using hp, by simpa using hb⟩
  rw [← List.reverse_append, ← e, List.reverse_reverse]

/-- **The last place of a separator** cuts a list in one way. -/
theorem append_cons_inj {a b q : List α} (hp : sep ∉ p) (hq : sep ∉ q)
    (h : a ++ sep :: p = b ++ sep :: q) : a = b ∧ p = q := by
  -- Read backwards, it is the first place.
  have hrev : p.reverse ++ sep :: a.reverse = q.reverse ++ sep :: b.reverse := by
    simpa using congrArg List.reverse h
  have hsplit := congrArg (List.splitOn sep) hrev
  rw [List.splitOn_append_cons_self_of_not_mem (by simpa using hp),
    List.splitOn_append_cons_self_of_not_mem (by simpa using hq)] at hsplit
  obtain rfl : p = q := List.reverse_injective (List.cons.inj hsplit).1
  exact ⟨List.append_cancel_right h, rfl⟩

/-- Cutting undoes writing a separator behind every piece. -/
theorem splitOn_flatMap {ls : List (List α)} (h : ∀ l ∈ ls, sep ∉ l) :
    (ls.flatMap (· ++ [sep])).splitOn sep = ls ++ [[]] := by
  induction ls with
  | nil => rfl
  | cons l ls ih =>
    have hl : sep ∉ l := h l List.mem_cons_self
    have hls := ih fun l hl => h l (List.mem_cons_of_mem _ hl)
    rw [List.flatMap_cons, List.append_assoc, List.singleton_append,
      List.splitOn_append_cons_self_of_not_mem hl, hls, List.cons_append]

/-- A separator behind every piece, and no other. -/
theorem count_flatMap {ls : List (List α)} (h : ∀ l ∈ ls, sep ∉ l) :
    (ls.flatMap (· ++ [sep])).count sep = ls.length := by
  induction ls with
  | nil => rfl
  | cons l ls ih =>
    have hl : l.count sep = 0 := List.count_eq_zero_of_not_mem (h l List.mem_cons_self)
    have hls := ih fun l hl => h l (List.mem_cons_of_mem _ hl)
    rw [List.flatMap_cons, List.count_append, List.count_append, List.count_singleton_self, hl, hls,
      List.length_cons]
    omega

end Pieces

namespace Text

/-! ## Lines -/

variable {t l r : Text} {ls : List Text}

theorem chomp_eq_self (h : t.getLast? ≠ some '\r') : t.chomp = t := if_neg (by simpa using h)

theorem chomp_cases (t : Text) :
    (t.getLast? ≠ some '\r' ∧ t.chomp = t) ∨ t = t.chomp ++ ['\r'] := by
  by_cases h : t.getLast? = some '\r'
  · right
    rw [chomp, if_pos (by rw [h]; rfl)]
    exact (List.dropLast_append_getLast? '\r' h).symm
  · exact .inl ⟨h, chomp_eq_self h⟩

theorem chomp_append_cr (t : Text) : (t ++ ['\r']).chomp = t := by
  simp [chomp]

theorem lines_of_notMem (h : '\n' ∉ l) : l.lines = if l.isEmpty then [] else [l] := by
  rw [lines, pieces_eq_splitOn, List.splitOn_eq_singleton h]
  cases l with
  | nil => rfl
  | cons c l => rfl

theorem lines_append_cons (h : '\n' ∉ l) : (l ++ '\n' :: r).lines = l.chomp :: r.lines := by
  rw [lines, lines, pieces_eq_splitOn, pieces_eq_splitOn,
    List.splitOn_append_cons_self_of_not_mem h]
  have hne : r.splitOn '\n' ≠ [] := List.splitOn_ne_nil '\n' r
  cases hs : r.splitOn '\n' with
  | nil => exact absurd hs hne
  | cons p ps => simp [ofPieces]

/-- **The lines of two texts one after the other**, of which the first has ended its last line. -/
theorem lines_append (h : ∀ c ∈ t.getLast?, c = '\n') : (t ++ r).lines = t.lines ++ r.lines := by
  induction t using cut_induction '\n' with
  | piece t ht =>
    rcases List.eq_nil_or_concat' t with rfl | ⟨t, c, rfl⟩
    · rfl
    · obtain rfl := h c (by simp)
      simp at ht
  | cut a t ha ih =>
    have ht : ∀ c ∈ t.getLast?, c = '\n' := by
      intro c hc
      refine h c ?_
      rw [List.getLast?_append, List.getLast?_cons, Option.mem_def.mp hc]
      rfl
    rw [List.append_assoc, List.cons_append, lines_append_cons ha, lines_append_cons ha, ih ht,
      List.cons_append]

/-- Lines that are written with a line feed behind each. -/
theorem lines_flatMap (h : ∀ l ∈ ls, '\n' ∉ l) :
    lines (ls.flatMap (· ++ ['\n'])) = ls.map chomp := by
  induction ls with
  | nil => rfl
  | cons l ls ih =>
    rw [List.flatMap_cons, List.append_assoc, List.singleton_append,
      lines_append_cons (h l List.mem_cons_self), ih fun l hl => h l (List.mem_cons_of_mem _ hl),
      List.map_cons]

/-- A line is a piece, of which a carriage return at the end may have been dropped. -/
theorem exists_piece_of_mem_lines (h : l ∈ t.lines) :
    ∃ p ∈ t.splitOn '\n', l = p ∨ p = l ++ ['\r'] := by
  induction t using cut_induction '\n' with
  | piece t ht =>
    rw [lines_of_notMem ht] at h
    split_ifs at h with he
    · cases h
    · rw [List.splitOn_eq_singleton ht]
      exact ⟨t, by simp, .inl (List.mem_singleton.mp h)⟩
  | cut a r ha ih =>
    rw [lines_append_cons ha, List.mem_cons] at h
    rw [List.splitOn_append_cons_self_of_not_mem ha]
    rcases h with rfl | h
    · refine ⟨a, List.mem_cons_self, ?_⟩
      rcases chomp_cases a with ⟨-, hc⟩ | hc
      · exact .inl hc
      · exact .inr hc
    · obtain ⟨p, hp, hl⟩ := ih h
      exact ⟨p, List.mem_cons_of_mem _ hp, hl⟩

theorem newline_notMem_of_mem_lines (h : l ∈ t.lines) : '\n' ∉ l := by
  obtain ⟨p, hp, hl⟩ := exists_piece_of_mem_lines h
  have hn : '\n' ∉ p := (mem_splitOn_iff.mp hp).1
  rcases hl with rfl | rfl
  · exact hn
  · exact fun hm => hn (List.mem_append_left _ hm)

/-- **The lines of a text.** A line feed ends a line, together with one carriage return before it if
there is one. What follows the last line feed is one more line unless it is empty. -/
inductive HasLines : Text → List Text → Prop where
  | nil : HasLines [] []
  | last {l : Text} (hl : l ≠ []) (h : '\n' ∉ l) : HasLines l [l]
  | lf {l r : Text} {ls : List Text} (h : '\n' ∉ l) (hcr : l.getLast? ≠ some '\r')
    (rest : HasLines r ls) : HasLines (l ++ '\n' :: r) (l :: ls)
  | crlf {l r : Text} {ls : List Text} (h : '\n' ∉ l) (rest : HasLines r ls) :
    HasLines (l ++ '\r' :: '\n' :: r) (l :: ls)

theorem hasLines_lines (t : Text) : t.HasLines t.lines := by
  induction t using cut_induction '\n' with
  | piece t h =>
    rw [lines_of_notMem h]
    cases t with
    | nil => exact .nil
    | cons c t => exact .last (List.cons_ne_nil c t) h
  | cut l r h ih =>
    rw [lines_append_cons h]
    rcases chomp_cases l with ⟨hcr, hc⟩ | hc
    · rw [hc]
      exact .lf h hcr ih
    · rw [hc] at h
      have hl : l ++ '\n' :: r = chomp l ++ '\r' :: '\n' :: r := by
        conv_lhs => rw [hc]
        simp
      rw [hl]
      exact .crlf (fun hm => h (List.mem_append_left _ hm)) ih

/-- **A text has exactly one list of lines.** -/
theorem hasLines_iff : t.HasLines ls ↔ ls = t.lines := by
  constructor
  · intro h
    induction h with
    | nil => rfl
    | @last l hl h => rw [lines_of_notMem h, if_neg (by simpa using hl)]
    | @lf l r ls h hcr rest ih =>
      rcases chomp_cases l with ⟨-, hc⟩ | hc
      · rw [lines_append_cons h, hc, ih]
      · exact absurd (by rw [hc]; simp) hcr
    | @crlf l r ls h rest ih =>
      have hm : '\n' ∉ l ++ ['\r'] := by simpa using h
      have e : l ++ '\r' :: '\n' :: r = (l ++ ['\r']) ++ '\n' :: r := by simp
      rw [e, lines_append_cons hm, chomp_append_cr, ih]
  · rintro rfl
    exact hasLines_lines t

end Text

end CommandVetting
