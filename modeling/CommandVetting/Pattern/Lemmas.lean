import CommandVetting.Pattern.Search

/-!
# The search finds what patterns mean

A try is related to the derivations by induction on the pattern, with the place and the rest of the
pattern left open. Rounds that consume nothing are skipped, so that as many rounds suffice as there
are characters left.

* `run_sound`: a try that succeeds has derived a span;
* `run_complete`: a try succeeds if some span can be derived;
* **`search_iff`: the search succeeds exactly when the pattern occurs in the text**.
-/

namespace CommandVetting.Pattern

/-! ## Soundness -/

theorem rounds_sound {p : Pattern}
    (ih : ∀ k u r, p.run k ⟨u.getLast?, r⟩ = true → ∃ v w, r = v ++ w ∧ Derives p u v w ∧
      k ⟨(u ++ v).getLast?, w⟩ = true) {k : Cursor → Bool} :
    ∀ n u r, rounds p.run k n ⟨u.getLast?, r⟩ = true → ∃ v w, r = v ++ w ∧ Derives p.star u v w ∧
      k ⟨(u ++ v).getLast?, w⟩ = true
  | 0, u, r, h => ⟨[], r, rfl, .starNil, by simpa [rounds] using h⟩
  | n + 1, u, r, h => by
    rw [rounds, Bool.or_eq_true] at h
    rcases h with h | h
    · exact ⟨[], r, rfl, .starNil, by simpa using h⟩
    · obtain ⟨v, w, rfl, hd, hk⟩ := ih _ u r h
      obtain ⟨v', w', rfl, hd', hk'⟩ := rounds_sound ih n _ _ hk
      exact ⟨v ++ v', w', by simp, .starCons hd hd', by simpa using hk'⟩

/-- **A try that succeeds has derived a span** after which the rest succeeds. -/
theorem run_sound (p : Pattern) : ∀ k u r, p.run k ⟨u.getLast?, r⟩ = true →
    ∃ v w, r = v ++ w ∧ Derives p u v w ∧ k ⟨(u ++ v).getLast?, w⟩ = true := by
  induction p with
  | empty => exact fun k u r h => ⟨[], r, rfl, .empty, by simpa [run] using h⟩
  | one s =>
    intro k u r h
    cases r with
    | nil => simp [run] at h
    | cons a r =>
      simp only [run, Bool.and_eq_true] at h
      exact ⟨[a], r, rfl, .one h.1, by simpa using h.2⟩
  | seq p q ihp ihq =>
    intro k u r h
    obtain ⟨v, w, rfl, hd, hk⟩ := ihp _ u r h
    obtain ⟨v', w', rfl, hd', hk'⟩ := ihq _ _ _ hk
    exact ⟨v ++ v', w', by simp, .seq hd hd', by simpa using hk'⟩
  | alt p q ihp ihq =>
    intro k u r h
    rw [run, Bool.or_eq_true] at h
    rcases h with h | h
    · obtain ⟨v, w, e, hd, hk⟩ := ihp _ u r h
      exact ⟨v, w, e, .altLeft hd, hk⟩
    · obtain ⟨v, w, e, hd, hk⟩ := ihq _ u r h
      exact ⟨v, w, e, .altRight hd, hk⟩
  | star p ih => exact fun k u r h => rounds_sound ih _ u r h
  | boundary =>
    intro k u r h
    simp only [run, Bool.and_eq_true] at h
    exact ⟨[], r, rfl, .boundary h.1, by simpa using h.2⟩
  | start =>
    intro k u r h
    simp only [run, Bool.and_eq_true, Option.isNone_iff_eq_none, List.getLast?_eq_none_iff] at h
    obtain ⟨rfl, h⟩ := h
    exact ⟨[], r, rfl, .start, by simpa using h⟩
  | stop =>
    intro k u r h
    simp only [run, Bool.and_eq_true, List.isEmpty_iff] at h
    obtain ⟨rfl, h⟩ := h
    exact ⟨[], [], rfl, .stop, by simpa using h⟩

/-! ## Completeness -/

theorem rounds_of_done {round : (Cursor → Bool) → Cursor → Bool} {k : Cursor → Bool} {c : Cursor}
    (h : k c = true) : ∀ n, rounds round k n c = true
  | 0 => h
  | n + 1 => by rw [rounds, h, Bool.true_or]

theorem rounds_complete {p : Pattern}
    (ih : ∀ k u v w, Derives p u v w → k ⟨(u ++ v).getLast?, w⟩ = true →
      p.run k ⟨u.getLast?, v ++ w⟩ = true) {k : Cursor → Bool} {q : Pattern} {u v w : Text}
    (h : Derives q u v w) (hq : q = p.star) (hk : k ⟨(u ++ v).getLast?, w⟩ = true) :
    ∀ n, v.length ≤ n → rounds p.run k n ⟨u.getLast?, v ++ w⟩ = true := by
  induction h with
  | starNil => exact fun n _ => rounds_of_done (by simpa using hk) n
  | @starCons p' u v v' w left right _ ihr =>
    obtain rfl : p' = p := by simpa using hq
    intro n hn
    cases v with
    | nil => simpa using ihr rfl (by simpa using hk) n (by simpa using hn)
    | cons a v =>
      cases n with
      | zero => simp at hn
      | succ n =>
        rw [rounds, Bool.or_eq_true, List.append_assoc]
        exact .inr (ih _ _ _ _ left (ihr rfl (by simpa using hk) n (by simp at hn; omega)))
  | _ => cases hq

/-- **A try succeeds if some span can be derived** after which the rest succeeds. -/
theorem run_complete (p : Pattern) : ∀ k u v w, Derives p u v w →
    k ⟨(u ++ v).getLast?, w⟩ = true → p.run k ⟨u.getLast?, v ++ w⟩ = true := by
  induction p with
  | empty => intro k u v w h hk; cases h; simpa [run] using hk
  | one s => intro k u v w h hk; cases h with | one hc => simpa [run, hc] using hk
  | seq p q ihp ihq =>
    intro k u v w h hk
    cases h with
    | seq left right =>
      rw [run, List.append_assoc]
      exact ihp _ _ _ _ left (ihq _ _ _ _ right (by simpa using hk))
  | alt p q ihp ihq =>
    intro k u v w h hk
    rw [run, Bool.or_eq_true]
    cases h with
    | altLeft h => exact .inl (ihp _ _ _ _ h hk)
    | altRight h => exact .inr (ihq _ _ _ _ h hk)
  | star p ih =>
    exact fun k u v w h hk => rounds_complete ih h rfl hk _ (by simp)
  | boundary => intro k u v w h hk; cases h with | boundary hb => simpa [run, hb] using hk
  | start => intro k u v w h hk; cases h; simpa [run] using hk
  | stop => intro k u v w h hk; cases h; simpa [run] using hk

/-! ## The search -/

theorem searchFrom_iff (p : Pattern) (u r : Text) : p.searchFrom u.getLast? r = true ↔
    ∃ a v w, r = a ++ v ++ w ∧ Derives p (u ++ a) v w := by
  induction r generalizing u with
  | nil =>
    rw [searchFrom]
    constructor
    · intro h
      obtain ⟨v, w, e, hd, -⟩ := run_sound p _ _ _ h
      exact ⟨[], v, w, by simpa using e, by simpa using hd⟩
    · rintro ⟨a, v, w, e, hd⟩
      obtain ⟨rfl, rfl, rfl⟩ : a = [] ∧ v = [] ∧ w = [] := by simpa using e.symm
      simpa using run_complete p (fun _ => true) _ _ _ hd rfl
  | cons b r ih =>
    rw [searchFrom, Bool.or_eq_true, show some b = (u ++ [b]).getLast? by simp, ih]
    constructor
    · rintro (h | ⟨a, v, w, rfl, hd⟩)
      · obtain ⟨v, w, e, hd, -⟩ := run_sound p _ _ _ h
        exact ⟨[], v, w, by simpa using e, by simpa using hd⟩
      · exact ⟨b :: a, v, w, by simp, by simpa using hd⟩
    · rintro ⟨a, v, w, e, hd⟩
      cases a with
      | nil =>
        left
        rw [show b :: r = v ++ w by simpa using e]
        exact run_complete p _ _ _ _ (by simpa using hd) rfl
      | cons c a =>
        simp only [List.cons_append, List.cons.injEq] at e
        obtain ⟨rfl, e⟩ := e
        exact .inr ⟨a, v, w, e, by simpa using hd⟩

/-- **The search succeeds exactly when the pattern occurs in the text.** -/
theorem search_iff (p : Pattern) (t : Text) : p.search t = true ↔ p.OccursIn t := by
  simpa [search, OccursIn] using searchFrom_iff p [] t

end CommandVetting.Pattern
