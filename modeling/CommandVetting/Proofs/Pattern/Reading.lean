import CommandVetting.Proofs.Pattern.Scanning

/-!
# The reader follows the grammar

A pattern text is read into the innermost group that is open. A part of the text that spells an item
adds the item to what has been read, whatever comes before and after it; conversely, what has been
read of every open group is what its text spells.

* `Pattern.readFrom`: reading with groups open; `SpellsItem.readFrom`, `SpellsRow.readFrom`,
  `Spells.readFrom`: what the parts of a pattern text do to what has been read;
* `Branches.Reads`, `ReadsIn`: what has been read of one group, and of all that are open;
* **`parse?_eq_some_iff`: a text is read as a pattern exactly when it spells the pattern**, so that a
  text spells one pattern at most.
-/

namespace CommandVetting

open PatternToken

/-! ## Every pattern text is read -/

theorem PatternToken.plain?_of_notMem {c : Char} (h : c ∉ metacharacters) :
    plain? c = some (.one (.literal c)) := by
  unfold plain?
  split <;> first | rfl | exact absurd (by decide) h

theorem PatternToken.escape?_of_isPunctuation {c : Char} (h : IsPunctuation c) :
    escape? c = some (.one (.literal c)) := by
  obtain ⟨h1, h2, h3⟩ := h
  unfold escape?
  split
  · exact absurd h3 (by decide)
  · exact absurd h3 (by decide)
  · rw [if_neg]
    simp only [h3, Bool.false_or, Bool.or_eq_true, decide_eq_true_eq]
    omega

/-- One item after the other, read into a group. -/
def Branches.pushAll (b : Branches) (ps : List Pattern) : Branches :=
  { b with items := ps.reverse ++ b.items }

theorem Branches.push_pushAll (b : Branches) (ps : List Pattern) (p : Pattern) :
    (b.pushAll ps).push p = b.pushAll (ps ++ [p]) := by
  simp [pushAll, push]

namespace Pattern

/-- Reads a text into the innermost group, with the groups around it at hand. -/
def readFrom (outer : List Branches) (b : Branches) (t : Text) : Option Pattern :=
  (scan? t).bind (ofTokens? outer b)

theorem parse?_eq_readFrom (t : Text) : parse? t = readFrom [] .fresh t := rfl

variable {outer : List Branches} {b : Branches}

theorem readFrom_append {k : PatternToken} {x r : Text} {outer' : List Branches} {b' : Branches}
    (hs : scan? (x ++ r) = (scan? r).map (k :: ·))
    (hk : ∀ ks, ofTokens? outer b (k :: ks) = ofTokens? outer' b' ks) :
    readFrom outer b (x ++ r) = readFrom outer' b' r := by
  rw [readFrom, hs, Option.bind_map]
  exact congrArg _ (funext hk)

theorem readFrom_plain {c : Char} {k : PatternToken} {r : Text} {outer' : List Branches}
    {b' : Branches} (hp : plain? c = some k) (hc : c ≠ '(')
    (hk : ∀ ks, ofTokens? outer b (k :: ks) = ofTokens? outer' b' ks) :
    readFrom outer b (c :: r) = readFrom outer' b' r := by
  refine readFrom_append (x := [c]) ?_ hk
  have hl : c ≠ '[' := by rintro rfl; cases hp
  have he : c ≠ '\\' := by rintro rfl; cases hp
  rw [List.singleton_append, scan?_plain hl he (fun h => absurd h hc), hp]
  rfl

theorem readFrom_group {r : Text} (hr : r.head? ≠ some '?') :
    readFrom outer b ('(' :: r) = readFrom (b :: outer) .fresh r := by
  refine readFrom_append (x := ['(']) (k := .openGroup) ?_ fun _ => rfl
  rw [List.singleton_append, scan?_plain (by decide) (by decide) fun _ => hr]
  rfl

theorem readFrom_silentGroup (r : Text) :
    readFrom outer b ('(' :: '?' :: ':' :: r) = readFrom (b :: outer) .fresh r :=
  readFrom_append (x := ['(', '?', ':']) (k := .openGroup) (scan?_silentGroup r) fun _ => rfl

theorem readFrom_boundary (r : Text) :
    readFrom outer b (asciiBoundary ++ r) = readFrom outer (b.push .boundary) r :=
  readFrom_append (k := .boundary) (scan?_boundary r) fun _ => rfl

theorem readFrom_escape {c : Char} {k : PatternToken} {r : Text} {b' : Branches}
    (he : escape? c = some k)
    (hk : ∀ ks, ofTokens? outer b (k :: ks) = ofTokens? outer b' ks) :
    readFrom outer b ('\\' :: c :: r) = readFrom outer b' r := by
  refine readFrom_append (x := ['\\', c]) ?_ hk
  change scan? ('\\' :: c :: r) = _
  rw [scan?_escape, he]
  rfl

theorem readFrom_repeat {c : Char} {k : PatternToken} {f : Pattern → Pattern} {p : Pattern}
    {r : Text} (hc : c ≠ '(') (hp : plain? c = some k)
    (hk : ∀ b ks, ofTokens? outer b (k :: ks) = (b.repeat? f).bind (ofTokens? outer · ks)) :
    readFrom outer (b.push p) (c :: r) = readFrom outer (b.push (f p)) r :=
  readFrom_plain hp hc fun ks => by rw [hk]; rfl

end Pattern

open Pattern

mutual

/-- **A text that spells an item adds the item** to what has been read. -/
theorem SpellsItem.readFrom {t : Text} {p : Pattern} : SpellsItem t p →
    ∀ outer b r, readFrom outer b (t ++ r) = readFrom outer (b.push p) r
  | .literal (c := c) h, _, _, _ =>
    readFrom_plain (plain?_of_notMem h) (by rintro rfl; exact absurd (by decide) h) fun _ => rfl
  | .escaped h, _, _, _ => readFrom_escape (escape?_of_isPunctuation h) fun _ => rfl
  | .blank, _, _, _ => readFrom_escape rfl fun _ => rfl
  | .word, _, _, _ => readFrom_escape rfl fun _ => rfl
  | .anyInLine, _, _, _ => readFrom_plain rfl (by decide) fun _ => rfl
  | @SpellsItem.anyOf c cs h, _, _, r => by
    refine readFrom_append (k := .one (.anyOf (c :: cs))) ?_ fun _ => rfl
    rw [List.cons_append, List.append_assoc, scan?_list]
    exact scanWith?_members h [] (by simp) r
  | .boundary, _, _, r => readFrom_boundary r
  | .start, _, _, _ => readFrom_plain rfl (by decide) fun _ => rfl
  | .stop, _, _, _ => readFrom_plain rfl (by decide) fun _ => rfl
  | .group (t := t) h, outer, b, r => by
    obtain ⟨b', rfl, hr⟩ := h.readFrom
    have hq : (t ++ (')' :: r)).head? ≠ some '?' := head?_append_ne h.head?_ne (by simp)
    rw [List.cons_append, List.append_assoc]
    change Pattern.readFrom outer b ('(' :: (t ++ (')' :: r))) = _
    rw [readFrom_group hq, hr]
    exact readFrom_plain rfl (by decide) fun _ => rfl
  | .silentGroup (t := t) h, outer, b, r => by
    obtain ⟨b', rfl, hr⟩ := h.readFrom
    simp only [List.cons_append, List.append_assoc]
    change Pattern.readFrom outer b ('(' :: '?' :: ':' :: (t ++ (')' :: r))) = _
    rw [readFrom_silentGroup, hr]
    exact readFrom_plain rfl (by decide) fun _ => rfl
  | .star h, outer, b, r => by
    rw [List.append_assoc, h.readFrom]
    exact readFrom_repeat (by decide) rfl fun _ _ => rfl
  | .plus h, outer, b, r => by
    rw [List.append_assoc, h.readFrom]
    exact readFrom_repeat (by decide) rfl fun _ _ => rfl
  | .optional h, outer, b, r => by
    rw [List.append_assoc, h.readFrom]
    exact readFrom_repeat (by decide) rfl fun _ _ => rfl

/-- A text that spells a row adds its items. -/
theorem SpellsRow.readFrom {t : Text} {ps : List Pattern} : SpellsRow t ps →
    ∀ outer b r, readFrom outer b (t ++ r) = readFrom outer (b.pushAll ps) r
  | .nil, _, _, _ => rfl
  | .snoc init last, outer, b, r => by
    rw [List.append_assoc, init.readFrom, last.readFrom, Branches.push_pushAll]

/-- A text that spells a pattern fills a fresh group with it. -/
theorem Spells.readFrom {t : Text} {p : Pattern} : Spells t p →
    ∃ b : Branches, b.pattern = p ∧
      ∀ outer r, readFrom outer .fresh (t ++ r) = readFrom outer b r
  | @Spells.row t ps h =>
    ⟨Branches.fresh.pushAll ps, by simp [Branches.pattern, Branches.pushAll, Branches.fresh],
      fun outer r => h.readFrom outer .fresh r⟩
  | @Spells.bar t t' p ps init last => by
    obtain ⟨b, rfl, hr⟩ := init.readFrom
    refine ⟨b.next.pushAll ps, ?_, fun outer r => ?_⟩
    · simp [Branches.pattern, Branches.pushAll, Branches.next]
    · have hbar : Pattern.readFrom outer b ('|' :: (t' ++ r)) =
          Pattern.readFrom outer b.next (t' ++ r) :=
        readFrom_plain rfl (by decide) fun _ => rfl
      rw [List.append_assoc, hr, List.cons_append, hbar]
      exact last.readFrom outer b.next r

end

theorem Spells.parse? {t : Text} {p : Pattern} (h : Spells t p) : Pattern.parse? t = some p := by
  obtain ⟨b, rfl, hr⟩ := h.readFrom
  have hread := hr [] []
  rw [List.append_nil] at hread
  exact (parse?_eq_readFrom t).trans hread

/-! ## What is read is spelt -/

/-- What has been read of a group is what its text spells. -/
def Branches.Reads (b : Branches) (t : Text) : Prop :=
  match b.done with
  | none => SpellsRow t b.items.reverse
  | some p => ∃ t₁ t₂, t = t₁ ++ '|' :: t₂ ∧ Spells t₁ p ∧ SpellsRow t₂ b.items.reverse

namespace Branches

theorem reads_fresh : fresh.Reads [] := .nil

theorem Reads.of_row {b b' : Branches} {t x : Text} (h : b.Reads t) (hd : b'.done = b.done)
    (row : ∀ t, SpellsRow t b.items.reverse → SpellsRow (t ++ x) b'.items.reverse) :
    b'.Reads (t ++ x) := by
  obtain ⟨done, items⟩ := b
  cases done with
  | none =>
    rw [Reads, hd]
    exact row t h
  | some p =>
    obtain ⟨t₁, t₂, rfl, hp, hr⟩ := h
    rw [Reads, hd]
    exact ⟨t₁, t₂ ++ x, by simp, hp, row t₂ hr⟩

theorem Reads.push {b : Branches} {t x : Text} {p : Pattern} (h : b.Reads t)
    (hp : SpellsItem x p) : (b.push p).Reads (t ++ x) := by
  refine h.of_row rfl fun t ht => ?_
  rw [Branches.push, List.reverse_cons]
  exact .snoc ht hp

theorem Reads.repeat {b b' : Branches} {t : Text} {c : Char} {f : Pattern → Pattern}
    (h : b.Reads t) (hb : b.repeat? f = some b')
    (hf : ∀ {x p}, SpellsItem x p → SpellsItem (x ++ [c]) (f p)) : b'.Reads (t ++ [c]) := by
  obtain ⟨done, items⟩ := b
  cases items with
  | nil => cases hb
  | cons p ps =>
    obtain rfl : (⟨done, f p :: ps⟩ : Branches) = b' := Option.some.inj hb
    refine h.of_row rfl fun t ht => ?_
    simp only [List.reverse_cons] at ht ⊢
    obtain ⟨t, x, rfl, hi, hl⟩ := ht.exists_last
    rw [List.append_assoc]
    exact .snoc hi (hf hl)

/-- **What has been read of a group can be taken for a whole pattern text.** -/
theorem Reads.spells {b : Branches} {t : Text} (h : b.Reads t) : Spells t b.pattern := by
  obtain ⟨done, items⟩ := b
  cases done with
  | none => exact .row h
  | some p =>
    obtain ⟨t₁, t₂, rfl, hp, hr⟩ := h
    exact .bar hp hr

theorem Reads.next {b : Branches} {t : Text} (h : b.Reads t) : b.next.Reads (t ++ ['|']) :=
  ⟨t, [], rfl, h.spells, .nil⟩

end Branches

/-- What has been read of all open groups is what the text spells up to the place that has been
reached. -/
def ReadsIn : List Branches → Branches → Text → Prop
  | [], b, t => b.Reads t
  | o :: os, b, t => ∃ t₁ x t₂, t = t₁ ++ x ++ t₂ ∧ ReadsIn os o t₁ ∧
      PatternToken.openGroup.SpeltBy x ∧ b.Reads t₂

namespace ReadsIn

variable {outer : List Branches} {b b' : Branches} {t x : Text}

theorem step (h : ReadsIn outer b t) (hb : ∀ t, b.Reads t → b'.Reads (t ++ x)) :
    ReadsIn outer b' (t ++ x) := by
  cases outer with
  | nil => exact hb t h
  | cons o os =>
    obtain ⟨t₁, y, t₂, rfl, ho, hy, hr⟩ := h
    exact ⟨t₁, y, t₂ ++ x, by simp, ho, hy, hb t₂ hr⟩

theorem push (h : ReadsIn outer b t) {p : Pattern} (hp : SpellsItem x p) :
    ReadsIn outer (b.push p) (t ++ x) :=
  h.step fun _ hr => hr.push hp

theorem openGroup (h : ReadsIn outer b t) (hx : PatternToken.openGroup.SpeltBy x) :
    ReadsIn (b :: outer) .fresh (t ++ x) :=
  ⟨t, x, [], by simp, h, hx, Branches.reads_fresh⟩

theorem closeGroup {o : Branches} (h : ReadsIn (o :: outer) b t) :
    ReadsIn outer (o.push b.pattern) (t ++ [')']) := by
  obtain ⟨t₁, x, t₂, rfl, ho, hx, hr⟩ := h
  rw [List.append_assoc, List.append_assoc]
  refine ho.push ?_
  rcases hx with rfl | rfl
  · exact .group hr.spells
  · exact .silentGroup hr.spells

end ReadsIn

theorem ReadsIn.bind_repeat {outer : List Branches} {b : Branches} {t : Text} {c : Char}
    {f : Pattern → Pattern} {g : Branches → Option Pattern} {p : Pattern}
    (h : ReadsIn outer b t) (hf : ∀ {x p}, SpellsItem x p → SpellsItem (x ++ [c]) (f p))
    (hg : (b.repeat? f).bind g = some p) :
    ∃ b', ReadsIn outer b' (t ++ [c]) ∧ g b' = some p := by
  obtain ⟨b', hb, hp⟩ := Option.bind_eq_some_iff.mp hg
  exact ⟨b', h.step fun _ hr => hr.repeat hb hf, hp⟩

/-- **The tokens that are read complete a pattern text.** -/
theorem spells_of_ofTokens? {ks : List PatternToken} {outer : List Branches} {b : Branches}
    {t r : Text} {p : Pattern} (hs : scan? r = some ks) (h : ReadsIn outer b t)
    (hp : ofTokens? outer b ks = some p) : Spells (t ++ r) p := by
  induction ks generalizing outer b t r with
  | nil =>
    obtain rfl : r = [] := by
      by_contra hr
      obtain ⟨k, ks', x, r', hk, -⟩ := exists_speltBy hs hr
      cases hk
    cases outer with
    | nil =>
      obtain rfl : b.pattern = p := Option.some.inj hp
      rw [List.append_nil]
      exact Branches.Reads.spells h
    | cons o os => cases hp
  | cons k ks ih =>
    have hr : r ≠ [] := by rintro rfl; cases hs
    obtain ⟨k', ks', x, r, hk, rfl, hx, hs'⟩ := exists_speltBy hs hr
    obtain ⟨rfl, rfl⟩ := List.cons.inj hk
    rw [← List.append_assoc]
    cases k with
    | one | boundary | start | stop => exact ih hs' (h.push hx) hp
    | star =>
      subst hx
      obtain ⟨b', hb, hp⟩ := h.bind_repeat SpellsItem.star hp
      exact ih hs' hb hp
    | plus =>
      subst hx
      obtain ⟨b', hb, hp⟩ := h.bind_repeat SpellsItem.plus hp
      exact ih hs' hb hp
    | optional =>
      subst hx
      obtain ⟨b', hb, hp⟩ := h.bind_repeat SpellsItem.optional hp
      exact ih hs' hb hp
    | bar =>
      subst hx
      exact ih hs' (h.step fun _ hr => hr.next) hp
    | openGroup => exact ih hs' (h.openGroup hx) hp
    | closeGroup =>
      subst hx
      cases outer with
      | nil => cases hp
      | cons o os => exact ih hs' h.closeGroup hp

/-! ## The reading of a text -/

/-- **A text is read as a pattern exactly when it spells the pattern.** -/
theorem parse?_eq_some_iff {t : Text} {p : Pattern} : Pattern.parse? t = some p ↔ Spells t p := by
  refine ⟨fun h => ?_, fun h => h.parse?⟩
  obtain ⟨ks, hs, hp⟩ := Option.bind_eq_some_iff.mp h
  have h0 : ReadsIn [] .fresh [] := Branches.reads_fresh
  exact spells_of_ofTokens? hs h0 hp

/-- **A text spells one pattern at most.** -/
theorem Spells.unique {t : Text} {p q : Pattern} (hp : Spells t p) (hq : Spells t q) : p = q :=
  Option.some.inj (hp.parse?.symm.trans hq.parse?)

end CommandVetting
