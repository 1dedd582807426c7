import CommandVetting.Pattern.Search
import CommandVetting.Proofs.Pattern.Ends
import CommandVetting.Proofs.Pattern.Spans

/-!
# Scans that never go back

A scan goes through a text once. Each stride leads from a place to at most one other place, and a stride
over a class takes all the characters of the class that follow. A search that tries every span finds no
more than such a scan, if nothing of the class can be what comes next in the pattern.

* `Stride`: the ways to go on; `Stride.pattern`: the pattern that a stride stands for;
* `Cursor.between`, `Cursor.skip`: places, and the place behind a run of a class;
* `Stride.next?`, `Stride.scan?`: where one stride leads, and where a row of them does;
* `CharClass.isApartFrom`, `Stride.isOneWay`: what comes behind a run is never a part of it;
* **`Stride.scan?_eq_some_iff`**: a scan of this kind finds the only span that starts at its place;
* `Stride.occursIn_iff_scan?`: so the pattern occurs in a text if the scan succeeds somewhere.
-/

namespace CommandVetting

/-- A step of a scan that never goes back. -/
inductive Stride where
  /-- The start or the end of an ASCII word. -/
  | boundary
  | one (k : CharClass)
  /-- All characters of the class that follow, if there are any. -/
  | anyRun (k : CharClass)
  /-- All characters of the class that follow, at least one. -/
  | run (k : CharClass)
  /-- White space or the end of the text. -/
  | blankOrEnd
  deriving DecidableEq, Repr

namespace Cursor

/-- The place between two texts. -/
def between (u w : Text) : Cursor := ⟨u.getLast?, w⟩

/-- The place behind all the characters of the class that follow. -/
def skip (c : Cursor) (k : CharClass) : Cursor :=
  ⟨(c.rest.takeWhile k.contains).getLast?.or c.before, c.rest.dropWhile k.contains⟩

variable {k : CharClass} {u v w : Text}

theorem between_concat {a : Char} : between (u ++ [a]) w = ⟨some a, w⟩ := by
  rw [between, List.getLast?_concat]

theorem skip_between (u w : Text) (k : CharClass) : (between u w).skip k =
    between (u ++ w.takeWhile k.contains) (w.dropWhile k.contains) := by
  rw [between, between, skip, List.getLast?_append]

theorem skip_between_append (hv : ∀ c ∈ v, k.contains c = true)
    (hw : ∀ c ∈ w.head?, k.contains c = false) : (between u (v ++ w)).skip k = between (u ++ v) w := by
  obtain ⟨htake, hdrop⟩ := span_append hv hw
  rw [skip_between, htake, hdrop]

end Cursor

namespace Stride

/-- The pattern that the stride stands for. -/
def pattern : Stride → Pattern
  | boundary => .boundary
  | one k => .one k
  | anyRun k => .star (.one k)
  | run k => .plus (.one k)
  | blankOrEnd => .alt (.one .blank) .stop

/-- The place to which the stride leads. -/
def next? : Stride → Cursor → Option Cursor
  | boundary, c => if isBoundary c.before c.rest.head? then some c else none
  | one k, c => match c.rest with
    | [] => none
    | a :: r => if k.contains a then some ⟨some a, r⟩ else none
  | anyRun k, c => some (c.skip k)
  | run k, c => if c.rest.head?.any k.contains then some (c.skip k) else none
  | blankOrEnd, c => match c.rest with
    | [] => some c
    | a :: r => if isBlank a then some ⟨some a, r⟩ else none

/-- The place to which the strides lead, one after the other. -/
def scan? : List Stride → Cursor → Option Cursor
  | [], c => some c
  | s :: ss, c => (s.next? c).bind (scan? ss)

/-- The patterns of the strides, one after the other. -/
def row (ss : List Stride) : Pattern := .ofSeq (ss.map pattern)

end Stride

/-! ## What comes behind a run -/

/-- No character of the second class is in the first one. -/
def CharClass.isApartFrom : CharClass → CharClass → Bool
  | blank, l => l.avoidsPadding
  | word, literal c => !isWord c
  | _, _ => false

theorem CharClass.contains_eq_false_of_isApartFrom {k l : CharClass} {c : Char}
    (h : k.isApartFrom l = true) (hc : l.contains c = true) : k.contains c = false := by
  cases k with
  | blank =>
    have hp := isPadding_of_avoidsPadding h hc
    rw [isPadding, Bool.or_eq_false_iff] at hp
    exact hp.1
  | word =>
    cases l with
    | literal d =>
      have hfold : foldCase d = foldCase c := by simpa [contains, isVariant] using hc
      have hd : isWord d = false := by simpa [isApartFrom] using h
      rw [contains, ← isWord_foldCase, ← hfold, isWord_foldCase, hd]
    | _ => cases h
  | _ => cases h

namespace Stride

/-- The class of which the stride takes all characters that follow. -/
def runClass? : Stride → Option CharClass
  | anyRun k | run k => some k
  | boundary | one _ | blankOrEnd => none

/-- What the pattern derives starts with a character that the stride leaves. -/
def mayPrecede (s : Stride) (p : Pattern) : Bool :=
  s.runClass?.all fun k => !p.nullable && p.firsts.all k.isApartFrom

/-- No run goes on in what comes behind it. -/
def isOneWay : List Stride → Bool
  | [] => true
  | s :: ss => s.mayPrecede (row ss) && isOneWay ss

variable {s : Stride} {ss : List Stride} {p : Pattern} {c : Cursor} {t u v w : Text}

theorem contains_eq_false_of_mayPrecede {k : CharClass} (h : s.mayPrecede p = true)
    (hk : k ∈ s.runClass?) (hd : Derives p u v w) : ∀ c ∈ (v ++ w).head?, k.contains c = false := by
  simp only [mayPrecede, Option.mem_def.mp hk, Option.all_some, Bool.and_eq_true, Bool.not_eq_true'] at h
  intro c hc
  rw [List.head?_append_of_ne_nil v (hd.ne_nil h.1)] at hc
  obtain ⟨l, hl, hcl⟩ := hd.exists_firsts c hc
  exact CharClass.contains_eq_false_of_isApartFrom (List.all_eq_true.mp h.2 l hl) hcl

/-! ## One stride -/

/-- A stride leads over a span of its pattern. -/
theorem exists_of_next? (h : s.next? (.between u t) = some c) :
    ∃ v w, t = v ++ w ∧ Derives s.pattern u v w ∧ c = .between (u ++ v) w := by
  have hskip : ∀ k : CharClass, t = t.takeWhile k.contains ++ t.dropWhile k.contains :=
    fun k => List.takeWhile_append_dropWhile.symm
  have htaken : ∀ k : CharClass, ∀ d ∈ t.takeWhile k.contains, k.contains d = true :=
    fun k d hd => List.mem_takeWhile_imp hd
  cases s with
  | boundary =>
    rw [next?, Option.ite_none_right_eq_some] at h
    obtain ⟨hb, h⟩ := h
    refine ⟨[], t, rfl, .boundary hb, ?_⟩
    rw [List.append_nil, Option.some.inj h]
  | one k =>
    cases t with
    | nil => cases h
    | cons a t =>
      obtain ⟨ha, h⟩ := Option.ite_none_right_eq_some.mp h
      refine ⟨[a], t, rfl, .one ha, ?_⟩
      rw [← Option.some.inj h, Cursor.between_concat]
  | anyRun k =>
    refine ⟨_, _, hskip k, derives_star_one.mpr (htaken k), ?_⟩
    rw [← Cursor.skip_between]
    exact (Option.some.inj h).symm
  | run k =>
    obtain ⟨hk, h⟩ := Option.ite_none_right_eq_some.mp h
    refine ⟨_, _, hskip k, derives_plus_one.mpr ⟨?_, htaken k⟩, ?_⟩
    · cases t with
      | nil => cases hk
      | cons a t =>
        have ha : k.contains a = true := hk
        simp [ha]
    · rw [← Cursor.skip_between]
      exact (Option.some.inj h).symm
  | blankOrEnd =>
    cases t with
    | nil =>
      refine ⟨[], [], rfl, .altRight .stop, ?_⟩
      rw [List.append_nil]
      exact (Option.some.inj h).symm
    | cons a t =>
      obtain ⟨ha, h⟩ := Option.ite_none_right_eq_some.mp h
      refine ⟨[a], t, rfl, .altLeft (.one ha), ?_⟩
      rw [← Option.some.inj h, Cursor.between_concat]

/-- **A stride leads over every span of its pattern** behind which the class of a run does not go on. -/
theorem next?_of_derives (h : Derives s.pattern u v w)
    (hw : ∀ k ∈ s.runClass?, ∀ c ∈ w.head?, k.contains c = false) :
    s.next? (.between u (v ++ w)) = some (.between (u ++ v) w) := by
  cases s with
  | boundary =>
    cases h with
    | boundary hb =>
      rw [List.append_nil]
      exact if_pos hb
  | one k =>
    cases h with
    | one hc =>
      rw [Cursor.between_concat]
      exact if_pos hc
  | anyRun k =>
    have hv := derives_star_one.mp h
    rw [next?, Cursor.skip_between_append hv (hw k rfl)]
  | run k =>
    obtain ⟨hne, hv⟩ := derives_plus_one.mp h
    have hhead : (v ++ w).head?.any k.contains = true := by
      cases v with
      | nil => exact absurd rfl hne
      | cons a v => exact hv a List.mem_cons_self
    rw [next?, Cursor.skip_between_append hv (hw k rfl)]
    exact if_pos hhead
  | blankOrEnd =>
    cases h with
    | altLeft h =>
      cases h with
      | one hc =>
        rw [Cursor.between_concat]
        exact if_pos hc
    | altRight h =>
      cases h
      rw [List.append_nil u]
      rfl

/-! ## A row of strides -/

/-- **A scan that never goes back finds the only span** that the pattern derives from its place on. -/
theorem scan?_eq_some_iff (h : isOneWay ss = true) : scan? ss (.between u t) = some c ↔
    ∃ v w, t = v ++ w ∧ Derives (row ss) u v w ∧ c = .between (u ++ v) w := by
  induction ss generalizing u t with
  | nil =>
    constructor
    · intro hc
      refine ⟨[], t, rfl, .empty, ?_⟩
      rw [List.append_nil]
      exact (Option.some.inj hc).symm
    · rintro ⟨v, w, rfl, hd, rfl⟩
      cases hd
      rw [List.append_nil]
      rfl
  | cons s ss ih =>
    rw [isOneWay, Bool.and_eq_true] at h
    rw [scan?, Option.bind_eq_some_iff]
    constructor
    · rintro ⟨m, hm, hc⟩
      obtain ⟨v, t, rfl, hd, rfl⟩ := exists_of_next? hm
      obtain ⟨v', w, rfl, hd', rfl⟩ := (ih h.2).mp hc
      refine ⟨v ++ v', w, (List.append_assoc ..).symm, derives_ofSeq_cons.mpr (.seq hd hd'), ?_⟩
      rw [List.append_assoc]
    · rintro ⟨x, w, rfl, hd, rfl⟩
      cases derives_ofSeq_cons.mp hd with
      | @seq _ _ _ v v' _ hd hd' =>
        have hnext := next?_of_derives hd fun k hk => contains_eq_false_of_mayPrecede h.1 hk hd'
        rw [List.append_assoc]
        refine ⟨_, hnext, (ih h.2).mpr ⟨v', w, rfl, hd', ?_⟩⟩
        rw [List.append_assoc]

theorem occursIn_iff_scan? (h : isOneWay ss = true) : (row ss).OccursIn t ↔
    ∃ u w, t = u ++ w ∧ (scan? ss (.between u w)).isSome = true := by
  constructor
  · rintro ⟨u, v, w, rfl, hd⟩
    refine ⟨u, v ++ w, List.append_assoc .., ?_⟩
    rw [(scan?_eq_some_iff h).mpr ⟨v, w, rfl, hd, rfl⟩]
    rfl
  · rintro ⟨u, r, rfl, hr⟩
    obtain ⟨c, hc⟩ := Option.isSome_iff_exists.mp hr
    obtain ⟨v, w, rfl, hd, -⟩ := (scan?_eq_some_iff h).mp hc
    exact ⟨u, v, w, (List.append_assoc ..).symm, hd⟩

end Stride

end CommandVetting
