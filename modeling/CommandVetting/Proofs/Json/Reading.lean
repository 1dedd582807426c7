import Mathlib.Data.List.DropRight
import CommandVetting.Proofs.Json.Literals

/-!
# Reading JSON

The reader accepts exactly the texts that spell a value, and returns this value. So a text spells
one value at most, and every reader that follows the grammar returns the same.

* `skipGap_append`, `exists_gap`: the blanks between two tokens;
* `CompleteAt`: **what is spelled is read**, if the depth exceeds its length;
* `SoundAt`: **what is read is spelled**, whatever the depth;
* **`parse?_eq_some_iff`**: the reader and the grammar agree; `Spells.unique`.
-/

namespace CommandVetting.Json

/-! ## Gaps -/

theorem isGap_takeWhile (t : Text) : IsGap (t.takeWhile isGap) := by
  intro c hc
  exact List.all_eq_true.mp List.all_takeWhile c hc

/-- What is skipped is a gap. -/
theorem exists_gap (t : Text) : ∃ g, IsGap g ∧ t = g ++ skipGap t :=
  ⟨t.takeWhile isGap, isGap_takeWhile t, List.takeWhile_append_dropWhile.symm⟩

theorem skipGap_append {g : Text} (hg : IsGap g) (t : Text) : skipGap (g ++ t) = skipGap t :=
  List.dropWhile_append_of_pos hg

theorem skipGap_cons {c : Char} (hc : isGap c = false) (t : Text) : skipGap (c :: t) = c :: t := by
  simp [skipGap, hc]

theorem skipGap_skipGap (t : Text) : skipGap (skipGap t) = skipGap t :=
  List.dropWhile_idempotent isGap t

theorem isGap_of_isStart {c : Char} (h : isStart c = true) : isGap c = false := by
  cases hg : isGap c with
  | false => rfl
  | true =>
    simp only [isGap, Bool.or_eq_true, beq_iff_eq] at hg
    rcases hg with ((rfl | rfl) | rfl) | rfl <;> cases h

theorem EndsNumber.gap_append {g r : Text} (hg : IsGap g) (hr : EndsNumber r) :
    EndsNumber (g ++ r) := by
  cases g with
  | nil => exact hr
  | cons c g =>
    rintro d ⟨⟩
    have hc := hg c List.mem_cons_self
    simp only [isGap, Bool.or_eq_true, beq_iff_eq] at hc
    rcases hc with ((rfl | rfl) | rfl) | rfl <;> decide

/-! ## Where a value starts -/

section Skipping

variable (depth : Nat) (t : Text)

theorem readValue?_skipGap : readValue? depth (skipGap t) = readValue? depth t := by
  cases depth with
  | zero => rfl
  | succ depth => rw [readValue?, readValue?, skipGap_skipGap]

theorem readItems?_skipGap : readItems? depth (skipGap t) = readItems? depth t := by
  cases depth with
  | zero => rfl
  | succ depth => rw [readItems?, readItems?, readValue?_skipGap]

theorem readMembers?_skipGap : readMembers? depth (skipGap t) = readMembers? depth t := by
  cases depth with
  | zero => rfl
  | succ depth => rw [readMembers?, readMembers?, skipGap_skipGap]

end Skipping

/-! ## What is spelled is read -/

theorem Spells.exists_skipGap {t : Text} {j : Json} (h : Spells t j) (r : Text) :
    ∃ c u, skipGap (t ++ r) = c :: u ∧ isStart c = true := by
  obtain @⟨g, t, g', j, hg, h, -⟩ := h
  obtain ⟨c, u, rfl, hc⟩ := h.exists_cons
  refine ⟨c, u ++ (g' ++ r), ?_, hc⟩
  rw [List.append_assoc, skipGap_append hg]
  simpa using skipGap_cons (isGap_of_isStart hc) _

theorem SpellsItems.exists_skipGap {t : Text} {js : List Json} (h : SpellsItems t js) (r : Text) :
    ∃ c u, skipGap (t ++ r) = c :: u ∧ isStart c = true := by
  cases h with
  | last h => exact h.exists_skipGap r
  | more h rest =>
    rw [List.append_assoc]
    exact h.exists_skipGap _

theorem SpellsMembers.exists_skipGap {t : Text} {ms : List (Text × Json)}
    (h : SpellsMembers t ms) (r : Text) : ∃ u, skipGap (t ++ r) = '"' :: u := by
  have hmember : ∀ {t m}, SpellsMember t m → ∀ r, ∃ u, skipGap (t ++ r) = '"' :: u := by
    rintro t m ⟨hg, -, -, -⟩ r
    rw [List.append_assoc, skipGap_append hg]
    exact ⟨_, skipGap_cons rfl _⟩
  cases h with
  | last h => exact hmember h r
  | more h rest =>
    rw [List.append_assoc]
    exact hmember h _

theorem readValue?_arr {t u : Text} {c : Char} (h : skipGap t = c :: u) (hc : c ≠ ']')
    (depth : Nat) :
    readValue? (depth + 1) ('[' :: t) = (readItems? depth t).map fun p => (arr p.1, p.2) := by
  rw [readValue?, ← readItems?_skipGap, skipGap_cons rfl]
  simp [h, hc]

theorem readValue?_obj {t u : Text} (h : skipGap t = '"' :: u) (depth : Nat) :
    readValue? (depth + 1) ('\x7b' :: t) = (readMembers? depth t).map fun p => (obj p.1, p.2) := by
  rw [readValue?, ← readMembers?_skipGap, skipGap_cons rfl]
  simp [h]

theorem readValue?_num {c : Char} {u : Text} (hc : c = '-' ∨ c.isDigit = true) (depth : Nat) :
    readValue? (depth + 1) (c :: u) = (readNumber? (c :: u)).map fun p => (num p.1, p.2) := by
  have hstart : isStart c = true := by rcases hc with rfl | hc <;> simp [isStart, *]
  have hother : ∀ d ∈ ['n', 't', 'f', '"', '[', '\x7b'], ¬ (d = '-' ∨ d.isDigit = true) := by
    simp
  rw [readValue?, skipGap_cons (isGap_of_isStart hstart)]
  -- Each of the other readings is refuted by the first character.
  split <;> first | rfl | exact absurd ((List.cons.inj ‹_›).1 ▸ hc) (hother _ (by simp))

theorem readValue?_emptyArr {g : Text} (hg : IsGap g) (r : Text) (depth : Nat) :
    readValue? (depth + 1) ('[' :: (g ++ ']' :: r)) = some (arr [], r) := by
  have hclose : skipGap (g ++ ']' :: r) = ']' :: r := by rw [skipGap_append hg, skipGap_cons rfl]
  rw [readValue?, skipGap_cons rfl]
  simp [hclose]

theorem readValue?_emptyObj {g : Text} (hg : IsGap g) (r : Text) (depth : Nat) :
    readValue? (depth + 1) ('\x7b' :: (g ++ '\x7d' :: r)) = some (obj [], r) := by
  have hclose : skipGap (g ++ '\x7d' :: r) = '\x7d' :: r := by
    rw [skipGap_append hg, skipGap_cons rfl]
  rw [readValue?, skipGap_cons rfl]
  simp [hclose]

theorem endsNumber_cons {c : Char} (hc : c ∈ [',', ']', '\x7d']) (r : Text) :
    EndsNumber (c :: r) := by
  rintro d ⟨⟩
  simp only [List.mem_cons, List.not_mem_nil, or_false] at hc
  rcases hc with rfl | rfl | rfl <;> decide

theorem readItems?_of_read {t g r : Text} {j : Json} {depth : Nat}
    (h : readValue? depth t = some (j, g ++ r)) (hg : IsGap g) :
    readItems? (depth + 1) t = match skipGap r with
      | ',' :: r => (readItems? depth r).map fun p => (j :: p.1, p.2)
      | ']' :: r => some ([j], r)
      | _ => none := by
  rw [readItems?, h]
  show (match skipGap (g ++ r) with | ',' :: r => _ | ']' :: r => _ | _ => none) = _
  rw [skipGap_append hg]

theorem readMembers?_of_read {g t k g' u g'' r : Text} {j : Json} {depth : Nat} (hg : IsGap g)
    (hk : SpellsText t k) (hg' : IsGap g') (h : readValue? depth u = some (j, g'' ++ r))
    (hg'' : IsGap g'') :
    readMembers? (depth + 1) (g ++ '"' :: (t ++ '"' :: (g' ++ ':' :: u))) = match skipGap r with
      | ',' :: r => (readMembers? depth r).map fun p => ((k, j) :: p.1, p.2)
      | '\x7d' :: r => some ([(k, j)], r)
      | _ => none := by
  have hcolon : skipGap (g' ++ ':' :: u) = ':' :: u := by
    rw [skipGap_append hg', skipGap_cons rfl]
  rw [readMembers?, skipGap_append hg, skipGap_cons rfl]
  show (readString? _).bind _ = _
  rw [hk.read, Option.bind_some]
  dsimp only
  rw [hcolon]
  show (readValue? depth u).bind _ = _
  rw [h]
  show (match skipGap (g'' ++ r) with | ',' :: r => _ | '\x7d' :: r => _ | _ => none) = _
  rw [skipGap_append hg'']

section Complete

variable {depth : Nat} {t r : Text}

/-- The readers with a depth read all that is spelled and short enough. Every bracket and every
comma costs one of the depth, and is a character of the text. -/
structure CompleteAt (depth : Nat) : Prop where
  value : ∀ {t j r}, SpellsValue t j → t.length < depth → EndsNumber r →
    readValue? depth (t ++ r) = some (j, r)
  items : ∀ {t js r}, SpellsItems t js → t.length + 1 < depth →
    readItems? depth (t ++ ']' :: r) = some (js, r)
  members : ∀ {t ms r}, SpellsMembers t ms → t.length + 1 < depth →
    readMembers? depth (t ++ '\x7d' :: r) = some (ms, r)

theorem CompleteAt.value_succ (ih : CompleteAt depth) {j : Json} (h : SpellsValue t j)
    (hd : t.length ≤ depth) (hr : EndsNumber r) :
    readValue? (depth + 1) (t ++ r) = some (j, r) := by
  cases h with
  | nullWord | trueWord | falseWord => rfl
  | num h =>
    obtain ⟨c, u, rfl, hc⟩ := h.exists_cons
    have hnum := recognizes_numeral.complete h hr
    rw [List.cons_append] at hnum ⊢
    rw [readValue?_num hc, hnum]
    rfl
  | str h =>
    have hstr := h.read r
    rw [readValue?]
    simp [skipGap_cons, isGap, hstr]
  | emptyArr hg =>
    have harr := readValue?_emptyArr hg r depth
    simpa using harr
  | @arr t js h =>
    -- An item starts, so that the bracket is not taken for the end of the array.
    obtain ⟨c, u, hu, hc⟩ := h.exists_skipGap (']' :: r)
    have hne : c ≠ ']' := by rintro rfl; cases hc
    have hlt : t.length + 1 < depth := by simp at hd; omega
    have harr := readValue?_arr hu hne depth
    rw [ih.items h hlt] at harr
    simpa using harr
  | emptyObj hg =>
    have hobj := readValue?_emptyObj hg r depth
    simpa using hobj
  | @obj t ms h =>
    obtain ⟨u, hu⟩ := h.exists_skipGap ('\x7d' :: r)
    have hlt : t.length + 1 < depth := by simp at hd; omega
    have hobj := readValue?_obj hu depth
    rw [ih.members h hlt] at hobj
    simpa using hobj

/-- The reader leaves the gap behind a value. -/
theorem CompleteAt.spells (ih : CompleteAt depth) {j : Json} (h : Spells t j)
    (hd : t.length < depth) (hr : EndsNumber r) :
    ∃ g, IsGap g ∧ readValue? depth (t ++ r) = some (j, g ++ r) := by
  obtain @⟨g, u, g', j, hg, h, hg'⟩ := h
  refine ⟨g', hg', ?_⟩
  have hlt : u.length < depth := by simp at hd; omega
  rw [← readValue?_skipGap, List.append_assoc, skipGap_append hg, readValue?_skipGap,
    List.append_assoc]
  exact ih.value h hlt (hr.gap_append hg')

theorem CompleteAt.items_succ (ih : CompleteAt depth) {js : List Json} (h : SpellsItems t js)
    (hd : t.length < depth) : readItems? (depth + 1) (t ++ ']' :: r) = some (js, r) := by
  cases h with
  | last h =>
    obtain ⟨g, hg, hj⟩ := ih.spells h hd (endsNumber_cons (c := ']') (by simp) r)
    rw [readItems?_of_read hj hg]
    rfl
  | @more t u j js h rest =>
    have hlt : t.length < depth := by simp at hd; omega
    have hlt' : u.length + 1 < depth := by simp at hd; omega
    obtain ⟨g, hg, hj⟩ := ih.spells h hlt (endsNumber_cons (c := ',') (by simp) (u ++ ']' :: r))
    rw [List.append_assoc, List.cons_append, readItems?_of_read hj hg, skipGap_cons rfl]
    show (readItems? depth (u ++ ']' :: r)).map _ = _
    rw [ih.items rest hlt']
    rfl

theorem CompleteAt.member_succ (ih : CompleteAt depth) {m : Text × Json} (h : SpellsMember t m)
    (hd : t.length < depth) (hr : EndsNumber r) :
    readMembers? (depth + 1) (t ++ r) = match skipGap r with
      | ',' :: r => (readMembers? depth r).map fun p => (m :: p.1, p.2)
      | '\x7d' :: r => some ([m], r)
      | _ => none := by
  obtain @⟨g, x, k, g', u, j, hg, hk, hg', h⟩ := h
  have hlt : u.length < depth := by simp at hd; omega
  obtain ⟨g'', hg'', hj⟩ := ih.spells h hlt hr
  rw [← readMembers?_of_read hg hk hg' hj hg'']
  simp

theorem CompleteAt.members_succ (ih : CompleteAt depth) {ms : List (Text × Json)}
    (h : SpellsMembers t ms) (hd : t.length < depth) :
    readMembers? (depth + 1) (t ++ '\x7d' :: r) = some (ms, r) := by
  cases h with
  | last h =>
    rw [ih.member_succ h hd (endsNumber_cons (by simp) r)]
    rfl
  | @more t u m ms h rest =>
    have hlt : t.length < depth := by simp at hd; omega
    have hlt' : u.length + 1 < depth := by simp at hd; omega
    rw [List.append_assoc, List.cons_append,
      ih.member_succ h hlt (endsNumber_cons (by simp) (u ++ '\x7d' :: r)), skipGap_cons rfl]
    show (readMembers? depth (u ++ '\x7d' :: r)).map _ = _
    rw [ih.members rest hlt']
    rfl

theorem completeAt (depth : Nat) : CompleteAt depth := by
  induction depth with
  | zero => exact ⟨fun _ h => by omega, fun _ h => by omega, fun _ h => by omega⟩
  | succ depth ih =>
    exact ⟨fun h hd hr => ih.value_succ h (by omega) hr, fun h hd => ih.items_succ h (by omega),
      fun h hd => ih.members_succ h (by omega)⟩

end Complete

/-- **What is spelled is read.** -/
theorem Spells.parse?_eq_some {t : Text} {j : Json} (h : Spells t j) : parse? t = some j := by
  have hnil : EndsNumber [] := by simp [EndsNumber]
  obtain ⟨g, hg, hj⟩ := (completeAt (t.length + 1)).spells h (Nat.lt_succ_self _) hnil
  rw [List.append_nil, List.append_nil] at hj
  have hgap : skipGap g = [] := by simpa [skipGap] using skipGap_append hg []
  simp [parse?, hj, hgap]

/-! ## What is read is spelled -/

section Sound

variable {depth : Nat} {t r : Text}

/-- The readers with a depth read only what is spelled. -/
structure SoundAt (depth : Nat) : Prop where
  value : ∀ {t j r}, readValue? depth t = some (j, r) →
    ∃ g u, IsGap g ∧ SpellsValue u j ∧ t = g ++ (u ++ r)
  items : ∀ {t js r}, readItems? depth t = some (js, r) →
    ∃ u, SpellsItems u js ∧ t = u ++ ']' :: r
  members : ∀ {t ms r}, readMembers? depth t = some (ms, r) →
    ∃ u, SpellsMembers u ms ∧ t = u ++ '\x7d' :: r

/-- One case for every way in which a value can start. -/
theorem SoundAt.value_succ (ih : SoundAt depth) {j : Json}
    (h : readValue? (depth + 1) t = some (j, r)) : ∃ u, SpellsValue u j ∧ skipGap t = u ++ r := by
  rw [readValue?] at h
  split at h
  · next he =>
    obtain ⟨rfl, rfl⟩ := Prod.mk.inj (Option.some.inj h)
    exact ⟨_, .nullWord, he⟩
  · next he =>
    obtain ⟨rfl, rfl⟩ := Prod.mk.inj (Option.some.inj h)
    exact ⟨_, .trueWord, he⟩
  · next he =>
    obtain ⟨rfl, rfl⟩ := Prod.mk.inj (Option.some.inj h)
    exact ⟨_, .falseWord, he⟩
  · next he =>
    obtain ⟨s, hs, rfl⟩ := exists_of_map_fst str h
    obtain ⟨u, hu, rfl⟩ := spellsText_of_readString? hs
    exact ⟨_, .str hu, by simp [he]⟩
  · next x he =>
    obtain ⟨g, hg, hx⟩ := exists_gap x
    split at h
    · next he' =>
      obtain ⟨rfl, rfl⟩ := Prod.mk.inj (Option.some.inj h)
      exact ⟨_, .emptyArr hg, by rw [he, hx, he']; simp⟩
    · obtain ⟨js, hjs, rfl⟩ := exists_of_map_fst arr h
      rw [readItems?_skipGap] at hjs
      obtain ⟨u, hu, rfl⟩ := ih.items hjs
      exact ⟨_, .arr hu, by simp [he]⟩
  · next x he =>
    obtain ⟨g, hg, hx⟩ := exists_gap x
    split at h
    · next he' =>
      obtain ⟨rfl, rfl⟩ := Prod.mk.inj (Option.some.inj h)
      exact ⟨_, .emptyObj hg, by rw [he, hx, he']; simp⟩
    · obtain ⟨ms, hms, rfl⟩ := exists_of_map_fst obj h
      rw [readMembers?_skipGap] at hms
      obtain ⟨u, hu, rfl⟩ := ih.members hms
      exact ⟨_, .obj hu, by simp [he]⟩
  · obtain ⟨u, hu, rfl⟩ := exists_of_map_fst num h
    obtain ⟨hnum, he⟩ := recognizes_numeral.sound hu
    exact ⟨u, .num hnum, he⟩

theorem SoundAt.items_succ (ih : SoundAt depth) {js : List Json}
    (h : readItems? (depth + 1) t = some (js, r)) : ∃ u, SpellsItems u js ∧ t = u ++ ']' :: r := by
  rw [readItems?] at h
  obtain ⟨⟨j, x⟩, hj, hrest⟩ := Option.bind_eq_some_iff.mp h
  obtain ⟨g, u, hg, hu, rfl⟩ := ih.value hj
  obtain ⟨g', hg', hx⟩ := exists_gap x
  have hvalue : Spells (g ++ (u ++ g')) j := .value hg hu hg'
  dsimp only at hrest
  split at hrest
  · next y he =>
    obtain ⟨js, hjs, rfl⟩ := exists_of_map_fst (List.cons j) hrest
    obtain ⟨v, hv, rfl⟩ := ih.items hjs
    exact ⟨_, .more hvalue hv, by rw [hx, he]; simp⟩
  · next y he =>
    obtain ⟨rfl, rfl⟩ := Prod.mk.inj (Option.some.inj hrest)
    exact ⟨_, .last hvalue, by rw [hx, he]; simp⟩
  · cases hrest

theorem SoundAt.members_succ (ih : SoundAt depth) {ms : List (Text × Json)}
    (h : readMembers? (depth + 1) t = some (ms, r)) :
    ∃ u, SpellsMembers u ms ∧ t = u ++ '\x7d' :: r := by
  rw [readMembers?] at h
  obtain ⟨g, hg, ht⟩ := exists_gap t
  split at h
  · next x he =>
    obtain ⟨⟨k, y⟩, hk, hcolon⟩ := Option.bind_eq_some_iff.mp h
    obtain ⟨kt, hkt, rfl⟩ := spellsText_of_readString? hk
    obtain ⟨g', hg', hy⟩ := exists_gap y
    dsimp only at hcolon
    split at hcolon
    · next z he' =>
      obtain ⟨⟨j, w⟩, hj, hrest⟩ := Option.bind_eq_some_iff.mp hcolon
      obtain ⟨g₁, u, hg₁, hu, rfl⟩ := ih.value hj
      obtain ⟨g₂, hg₂, hw⟩ := exists_gap w
      have hmember := SpellsMember.member hg hkt hg' (.value hg₁ hu hg₂)
      dsimp only at hrest
      split at hrest
      · next v he'' =>
        obtain ⟨ms, hms, rfl⟩ := exists_of_map_fst (List.cons (k, j)) hrest
        obtain ⟨v, hv, rfl⟩ := ih.members hms
        refine ⟨_, .more hmember hv, ?_⟩
        rw [ht, he, hy, he', hw, he'']
        simp
      · next v he'' =>
        obtain ⟨rfl, rfl⟩ := Prod.mk.inj (Option.some.inj hrest)
        refine ⟨_, .last hmember, ?_⟩
        rw [ht, he, hy, he', hw, he'']
        simp
      · cases hrest
    · cases hcolon
  · cases h

theorem soundAt (depth : Nat) : SoundAt depth := by
  induction depth with
  | zero => exact ⟨fun h => by simp [readValue?] at h, fun h => by simp [readItems?] at h,
      fun h => by simp [readMembers?] at h⟩
  | succ depth ih =>
    refine ⟨fun {t j r} h => ?_, ih.items_succ, ih.members_succ⟩
    obtain ⟨g, hg, ht⟩ := exists_gap t
    obtain ⟨u, hu, hs⟩ := ih.value_succ h
    exact ⟨g, u, hg, hu, by rw [← hs, ← ht]⟩

end Sound

/-- **The reader and the grammar agree.** -/
theorem parse?_eq_some_iff {t : Text} {j : Json} : parse? t = some j ↔ Spells t j := by
  refine ⟨fun h => ?_, Spells.parse?_eq_some⟩
  unfold parse? at h
  split at h
  · next j' r hj =>
    split_ifs at h with hr
    obtain rfl := Option.some.inj h
    obtain ⟨g, u, hg, hu, rfl⟩ := (soundAt _).value hj
    obtain ⟨g', hg', hr'⟩ := exists_gap r
    rw [List.isEmpty_iff.mp hr, List.append_nil] at hr'
    subst hr'
    exact .value hg hu hg'
  · cases h

/-- **A text spells one value at most.** -/
theorem Spells.unique {t : Text} {j j' : Json} (h : Spells t j) (h' : Spells t j') : j = j' :=
  Option.some.inj (h.parse?_eq_some.symm.trans h'.parse?_eq_some)

end CommandVetting.Json
