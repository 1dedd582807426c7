import Mathlib.Algebra.Group.Nat.Even
import Mathlib.Data.List.Basic
import Mathlib.Tactic.Common
import CommandVetting.Pattern.Boundary

/-!
# The symbols of a pattern text

A pattern text is read from left to right. A backslash makes one symbol with the character behind it, and
every other character is a symbol of its own. Where ASCII word boundaries are put in, the symbols are
replaced one by one, so that the backslashes before a `b` decide whether it belongs to a boundary.

* `ReadsAs`, `symbols`: how a text is read, and **the only way to read it** (`readsAs_iff`);
* `ReadsAs.asciiBoundaries_eq`, `ReadsAs.length_asciiBoundaries`: the new text, symbol by symbol;
* `closingBackslashes`: the backslashes at the end of a text, which may reach into what follows;
* `generalBoundaries`: the way back, although a text may have looked like a rewritten one before;
* **`asciiBoundaries_exact`**: what the rewriting does to every text.
-/

namespace CommandVetting

variable {c : Char} {p q r s : Text} {ts us : List Text}

/-! ## Symbols -/

/-- The symbol for the end of a word of any script. -/
def wordBoundary : Text := r"\b"

/-- The backslash at the end of a text, with nothing behind it. -/
def loneBackslash : Text := ['\\']

/-- A text is read as a row of symbols. -/
inductive ReadsAs : Text → List Text → Prop where
  | nil : ReadsAs [] []
  | escape {c : Char} {r : Text} {ts : List Text} (h : ReadsAs r ts) :
    ReadsAs ('\\' :: c :: r) (['\\', c] :: ts)
  | lone : ReadsAs ['\\'] [loneBackslash]
  | plain {c : Char} {r : Text} {ts : List Text} (hc : c ≠ '\\') (h : ReadsAs r ts) :
    ReadsAs (c :: r) ([c] :: ts)

/-- The symbols of a text. -/
def symbols : Text → List Text
  | [] => []
  | '\\' :: c :: r => ['\\', c] :: symbols r
  | c :: r => [c] :: symbols r

theorem symbols_plain (hc : c ≠ '\\') (r : Text) : symbols (c :: r) = [c] :: symbols r := by
  rw [symbols]
  rintro d r' rfl
  exact absurd rfl hc

theorem readsAs_symbols (p : Text) : ReadsAs p (symbols p) := by
  fun_induction symbols p with
  | case1 => exact .nil
  | case2 c r ih => exact .escape ih
  | case3 c r hesc ih =>
    by_cases hc : c = '\\'
    · -- Nothing follows the backslash, or it would have been read with it.
      subst hc
      cases r with
      | nil => exact .lone
      | cons d r => exact absurd rfl (hesc d r rfl)
    · exact .plain hc ih

/-- **A text is read in one way.** -/
theorem readsAs_iff : ReadsAs p ts ↔ ts = symbols p := by
  constructor
  · intro h
    induction h with
    | nil | lone => rfl
    | escape _ ih => rw [ih, symbols]
    | plain hc _ ih => rw [ih, symbols_plain hc]
  · rintro rfl
    exact readsAs_symbols p

theorem exists_readsAs (p : Text) : ∃ ts, ReadsAs p ts := ⟨_, readsAs_symbols p⟩

/-! ## Rewriting symbol by symbol -/

/-- What stands for a symbol after the rewriting. -/
def asciiSymbol (t : Text) : Text := if t = wordBoundary then asciiBoundary else t

theorem asciiBoundaries_escape (c : Char) (r : Text) :
    asciiBoundaries ('\\' :: c :: r) = asciiSymbol ['\\', c] ++ asciiBoundaries r := by
  by_cases hc : c = 'b'
  · subst hc
    rfl
  · have hsymbol : (['\\', c] : Text) ≠ wordBoundary := fun h => hc (List.cons.inj (List.cons.inj h).2).1
    rw [asciiSymbol, if_neg hsymbol, asciiBoundaries]
    · rfl
    · exact hc

theorem asciiBoundaries_plain (hc : c ≠ '\\') (r : Text) :
    asciiBoundaries (c :: r) = c :: asciiBoundaries r := by
  rw [asciiBoundaries]
  · rintro r' rfl
    exact absurd rfl hc
  · rintro d r' rfl
    exact absurd rfl hc

theorem asciiSymbol_plain (hc : c ≠ '\\') : asciiSymbol [c] = [c] :=
  if_neg fun h => hc (List.cons.inj h).1

/-- **The rewriting replaces every symbol on its own.** -/
theorem ReadsAs.asciiBoundaries_eq (h : ReadsAs p ts) : asciiBoundaries p = ts.flatMap asciiSymbol := by
  induction h with
  | nil | lone => rfl
  | escape _ ih => rw [asciiBoundaries_escape, ih, List.flatMap_cons]
  | plain hc _ ih => rw [asciiBoundaries_plain hc, ih, List.flatMap_cons, asciiSymbol_plain hc,
      List.singleton_append]

theorem ReadsAs.flatten_eq (h : ReadsAs p ts) : ts.flatten = p := by
  induction h with
  | nil | lone => rfl
  | escape _ ih => rw [List.flatten_cons, ih]; rfl
  | plain _ _ ih => rw [List.flatten_cons, ih]; rfl

theorem length_asciiSymbol (t : Text) : (asciiSymbol t).length = t.length + 6 * [t].count wordBoundary := by
  rw [asciiSymbol]
  split_ifs with ht
  · subst ht
    rfl
  · simp [ht]

/-- Every boundary makes the text longer. -/
theorem ReadsAs.length_asciiBoundaries (h : ReadsAs p ts) :
    (asciiBoundaries p).length = p.length + 6 * ts.count wordBoundary := by
  rw [h.asciiBoundaries_eq, ← h.flatten_eq]
  clear h
  induction ts with
  | nil => rfl
  | cons t ts ih =>
    have ht := length_asciiSymbol t
    simp only [List.flatMap_cons, List.flatten_cons, List.length_append, List.count_cons,
      List.count_nil] at ht ih ⊢
    omega

theorem ReadsAs.asciiBoundaries_eq_self_iff (h : ReadsAs p ts) :
    asciiBoundaries p = p ↔ wordBoundary ∉ ts := by
  constructor
  · intro heq
    have hlength := h.length_asciiBoundaries
    rw [heq] at hlength
    exact List.count_eq_zero.mp (by omega)
  · intro hnot
    have hkept : ts.flatMap asciiSymbol = ts.flatMap id :=
      List.flatMap_congr fun t ht => if_neg (ne_of_mem_of_not_mem ht hnot)
    rw [h.asciiBoundaries_eq, hkept, List.flatMap_id, h.flatten_eq]

/-! ## Texts that are put together -/

theorem ReadsAs.append (h : ReadsAs p ts) (hlone : loneBackslash ∉ ts) (h' : ReadsAs q us) :
    ReadsAs (p ++ q) (ts ++ us) := by
  induction h with
  | nil => exact h'
  | escape _ ih => exact .escape (ih fun hmem => hlone (List.mem_cons_of_mem _ hmem))
  | lone => exact absurd List.mem_cons_self hlone
  | plain hc _ ih => exact .plain hc (ih fun hmem => hlone (List.mem_cons_of_mem _ hmem))

/-- A backslash that has nothing behind it makes a boundary with a `b`. -/
theorem ReadsAs.asciiBoundaries_append_ne (h : ReadsAs p ts) (hlone : loneBackslash ∈ ts) :
    asciiBoundaries (p ++ ['b']) ≠ asciiBoundaries p ++ ['b'] := by
  induction h with
  | nil => cases hlone
  | @escape c r ts _ ih =>
    have hmem : loneBackslash ∈ ts := (List.mem_cons.mp hlone).resolve_left (by simp [loneBackslash])
    rw [List.cons_append, List.cons_append, asciiBoundaries_escape, asciiBoundaries_escape,
      List.append_assoc, ne_eq, List.append_right_inj]
    exact ih hmem
  | lone => decide
  | @plain c r ts hc _ ih =>
    have hmem : loneBackslash ∈ ts :=
      (List.mem_cons.mp hlone).resolve_left fun h => hc (List.cons.inj h).1.symm
    rw [List.cons_append, asciiBoundaries_plain hc, asciiBoundaries_plain hc, List.cons_append, ne_eq,
      List.cons_inj_right]
    exact ih hmem

/-- The number of backslashes at the end of a text. -/
def closingBackslashes (p : Text) : Nat := (p.reverse.takeWhile (· == '\\')).length

theorem closingBackslashes_le (p : Text) : closingBackslashes p ≤ p.length :=
  Nat.le_trans (List.takeWhile_prefix _).length_le (Nat.le_of_eq List.length_reverse)

/-- A character in front counts if nothing but backslashes follows it. -/
theorem closingBackslashes_cons (c : Char) (r : Text) : closingBackslashes (c :: r) =
    closingBackslashes r + if closingBackslashes r = r.length ∧ c = '\\' then 1 else 0 := by
  have hr : (r.reverse.takeWhile (· == '\\')).length = closingBackslashes r := rfl
  rw [closingBackslashes, List.reverse_cons, List.takeWhile_append, hr, List.length_reverse]
  by_cases hall : closingBackslashes r = r.length
  · by_cases hc : c = '\\' <;> simp [hall, hc]
  · simp [hall, hr]

/-- **The backslashes at the end go in pairs** unless the last one has nothing behind it. -/
theorem ReadsAs.loneBackslash_notMem_iff (h : ReadsAs p ts) :
    loneBackslash ∉ ts ↔ Even (closingBackslashes p) := by
  rw [Nat.even_iff]
  induction h with
  | nil => decide
  | @escape c r ts _ ih =>
    have hne : loneBackslash ≠ ['\\', c] := by simp [loneBackslash]
    have hle := closingBackslashes_le r
    rw [List.mem_cons, or_iff_right hne, ih, closingBackslashes_cons, closingBackslashes_cons,
      List.length_cons]
    simp only [and_true]
    split_ifs <;> omega
  | lone => decide
  | @plain c r ts hc _ ih =>
    have hne : loneBackslash ≠ [c] := fun h => hc (List.cons.inj h).1.symm
    rw [List.mem_cons, or_iff_right hne, ih, closingBackslashes_cons, if_neg fun h => hc h.2, Nat.add_zero]

/-! ## The way back -/

/-- The pattern text with general word boundaries in place of the ASCII ones. -/
def generalBoundaries : Text → Text
  | [] => []
  | '(' :: '?' :: '-' :: 'u' :: ':' :: '\\' :: 'b' :: ')' :: r => wordBoundary ++ generalBoundaries r
  | '\\' :: c :: r => '\\' :: c :: generalBoundaries r
  | c :: r => c :: generalBoundaries r

theorem generalBoundaries_plain (hc : c ≠ '\\') (h : ¬asciiBoundary <+: c :: r) :
    generalBoundaries (c :: r) = c :: generalBoundaries r := by
  rw [generalBoundaries]
  · rintro r' rfl rfl
    exact h (List.prefix_append asciiBoundary r')
  · rintro d r' rfl
    exact absurd rfl hc

/-- What is neither a backslash nor the start of an ASCII boundary has not been put in. -/
theorem exists_of_asciiBoundaries_eq_cons (hesc : c ≠ '\\') (hopen : c ≠ '(')
    (h : asciiBoundaries p = c :: s) : ∃ p', p = c :: p' ∧ asciiBoundaries p' = s := by
  obtain ⟨ts, hp⟩ := exists_readsAs p
  cases hp with
  | nil => cases h
  | @escape d r ts =>
    rw [asciiBoundaries_escape, asciiSymbol] at h
    split_ifs at h
    · exact absurd (List.cons.inj h).1.symm hopen
    · exact absurd (List.cons.inj h).1.symm hesc
  | lone => exact absurd (List.cons.inj h).1.symm hesc
  | @plain d r ts hd =>
    rw [asciiBoundaries_plain hd] at h
    obtain ⟨rfl, hs⟩ := List.cons.inj h
    exact ⟨r, rfl, hs⟩

/-- Every boundary has been replaced. -/
theorem asciiBoundaries_ne_boundary : asciiBoundaries p ≠ '\\' :: 'b' :: s := by
  obtain ⟨ts, hp⟩ := exists_readsAs p
  intro h
  cases hp with
  | nil | lone => cases h
  | @escape d r ts =>
    rw [asciiBoundaries_escape, asciiSymbol] at h
    split_ifs at h with hd
    · cases h
    · obtain ⟨rfl, -⟩ := List.cons.inj (List.cons.inj h).2
      exact hd rfl
  | @plain d r ts hd =>
    rw [asciiBoundaries_plain hd] at h
    exact hd (List.cons.inj h).1

/-- **Only what has been put in looks like an ASCII boundary**, even if the text had its letters before. -/
theorem not_prefix_cons_asciiBoundaries (c : Char) (p : Text) :
    ¬asciiBoundary <+: c :: asciiBoundaries p := by
  rintro ⟨s, hs⟩
  -- The letters before the boundary are those of the text, and the boundary itself would have been replaced.
  obtain ⟨-, hs⟩ := List.cons.inj hs
  obtain ⟨p, -, hs⟩ := exists_of_asciiBoundaries_eq_cons (by decide) (by decide) hs.symm
  obtain ⟨p, -, hs⟩ := exists_of_asciiBoundaries_eq_cons (by decide) (by decide) hs
  obtain ⟨p, -, hs⟩ := exists_of_asciiBoundaries_eq_cons (by decide) (by decide) hs
  obtain ⟨p, -, hs⟩ := exists_of_asciiBoundaries_eq_cons (by decide) (by decide) hs
  exact asciiBoundaries_ne_boundary hs

/-- **The rewriting can be undone.** -/
theorem generalBoundaries_asciiBoundaries (p : Text) : generalBoundaries (asciiBoundaries p) = p := by
  obtain ⟨ts, hp⟩ := exists_readsAs p
  induction hp with
  | nil | lone => rfl
  | @escape d r ts _ ih =>
    rw [asciiBoundaries_escape, asciiSymbol]
    split_ifs with hd
    · obtain rfl : d = 'b' := (List.cons.inj (List.cons.inj hd).2).1
      exact congrArg (wordBoundary ++ ·) ih
    · exact congrArg ('\\' :: d :: ·) ih
  | @plain d r ts hd _ ih =>
    rw [asciiBoundaries_plain hd, generalBoundaries_plain hd (not_prefix_cons_asciiBoundaries d r), ih]

/-! ## The rewriting -/

/-- **The rewriting of boundaries is exact.** A text is read in one way, and each of its symbols that is a
general boundary becomes an ASCII one, while all others stay. So texts that differ are still different
afterwards, a text stays the same exactly when it has no boundary, and a text can be rewritten apart from
whatever follows it exactly when it ends in an even number of backslashes. -/
theorem asciiBoundaries_exact :
    Function.Injective asciiBoundaries ∧ ∀ p : Text,
      (∀ ts, ReadsAs p ts ↔ ts = symbols p) ∧
      asciiBoundaries p =
        (symbols p).flatMap (fun t => if t = wordBoundary then asciiBoundary else t) ∧
      (asciiBoundaries p = p ↔ wordBoundary ∉ symbols p) ∧
      ((∀ q, asciiBoundaries (p ++ q) = asciiBoundaries p ++ asciiBoundaries q) ↔
        Even (closingBackslashes p)) := by
  refine ⟨Function.LeftInverse.injective generalBoundaries_asciiBoundaries, fun p => ?_⟩
  have h := readsAs_symbols p
  refine ⟨fun _ => readsAs_iff, h.asciiBoundaries_eq, h.asciiBoundaries_eq_self_iff, ?_⟩
  rw [← h.loneBackslash_notMem_iff]
  constructor
  · intro happend hlone
    exact h.asciiBoundaries_append_ne hlone (happend ['b'])
  · intro hlone q
    have hq := readsAs_symbols q
    rw [(h.append hlone hq).asciiBoundaries_eq, List.flatMap_append, h.asciiBoundaries_eq,
      hq.asciiBoundaries_eq]

/-- An escaped backslash before a `b`, and a boundary in a text that looks like an ASCII one. -/
example : asciiBoundaries r"\\bin(?-u:\b)" = r"\\bin(?-u:(?-u:\b))" := by decide

end CommandVetting
