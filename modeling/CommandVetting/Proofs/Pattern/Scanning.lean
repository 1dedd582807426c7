import Mathlib.Tactic.Common
import CommandVetting.Proofs.Pattern.Grammar

/-!
# The scanner follows the grammar

The scanner reads a pattern text from left to right. Forwards, every text that spells a token is
read as that token, whatever follows it. Backwards, the tokens that are read give the text back
piece by piece.

* `PatternToken.SpeltBy`: the texts that spell a token;
* `scanWith?_cons`, `scan?_list`, `scan?_silentGroup`, `scan?_boundary`, `scan?_escape`, `scan?_plain`: one
  step of the scanner; `scanWith?_members`: a whole list of characters;
* **`exists_speltBy`**: the text that was read starts with a spelling of the first token.
-/

namespace CommandVetting.PatternToken

/-- The texts that spell a token. -/
def SpeltBy : PatternToken → Text → Prop
  | one k, x => SpellsItem x (.one k)
  | boundary, x => SpellsItem x .boundary
  | start, x => SpellsItem x .start
  | stop, x => SpellsItem x .stop
  | star, x => x = ['*']
  | plus, x => x = ['+']
  | optional, x => x = ['?']
  | bar, x => x = ['|']
  | openGroup, x => x = ['('] ∨ x = ['(', '?', ':']
  | closeGroup, x => x = [')']

/-! ## One step of the scanner -/

theorem scanWith?_cons (ms : List Char) (c : Char) (r : Text) : scanWith? (some ms) (c :: r) =
    if c == ']' then if ms.isEmpty then none else (scan? r).map (.one (.anyOf ms.reverse) :: ·)
    else if isMember c then scanWith? (some (c :: ms)) r
    else none :=
  rfl

theorem scan?_list (r : Text) : scan? ('[' :: r) = scanWith? (some []) r := rfl

theorem scan?_silentGroup (r : Text) :
    scan? ('(' :: '?' :: ':' :: r) = (scan? r).map (.openGroup :: ·) := rfl

theorem scan?_boundary (r : Text) : scan? (asciiBoundary ++ r) = (scan? r).map (.boundary :: ·) := rfl

theorem scan?_plain {c : Char} {r : Text} (hl : c ≠ '[') (he : c ≠ '\\')
    (hg : c = '(' → r.head? ≠ some '?') :
    scan? (c :: r) = (plain? c).bind fun k => (scan? r).map (k :: ·) := by
  have hg' : ∀ tail, c = '(' → r = '?' :: tail → False := by
    rintro tail hc rfl
    exact hg hc rfl
  rw [scan?, scanWith?.eq_8 c r hl (fun _ h => hg' _ h) (fun _ h => hg' _ h) hg'
    (fun _ _ h _ => he h)]
  simp only [Option.map_eq_bind]
  rfl

theorem scan?_escape (c : Char) (r : Text) :
    scan? ('\\' :: c :: r) = (escape? c).bind fun k => (scan? r).map (k :: ·) := by
  simp only [Option.map_eq_bind]
  rfl

theorem isMember_iff {c : Char} : (c ≠ ']' ∧ isMember c = true) ↔ c ∉ listSigns := by
  simp only [isMember, listSigns, Bool.not_eq_true', Bool.or_eq_false_iff, beq_eq_false_iff_ne,
    List.mem_cons, List.not_mem_nil, or_false, not_or]
  tauto

theorem scanWith?_members {cs : List Char} (hcs : ∀ c ∈ cs, c ∉ listSigns) (ms : List Char)
    (h : ms ++ cs ≠ []) (r : Text) : scanWith? (some ms) (cs ++ ']' :: r) =
      (scan? r).map (.one (.anyOf (ms.reverse ++ cs)) :: ·) := by
  induction cs generalizing ms with
  | nil =>
    have hm : ms.isEmpty = false := by simpa using h
    rw [List.nil_append, scanWith?_cons, if_pos (by decide), hm, List.append_nil]
    rfl
  | cons c cs ih =>
    obtain ⟨hc, hm⟩ := isMember_iff.mpr (hcs c (by simp))
    rw [List.cons_append, scanWith?_cons, if_neg (by simpa using hc), if_pos hm,
      ih (fun d hd => hcs d (by simp [hd])) _ (by simp), List.reverse_cons, List.append_assoc]
    rfl

/-! ## From tokens back to text -/

theorem speltBy_of_plain? {c : Char} {k : PatternToken} (h : plain? c = some k) :
    k.SpeltBy [c] := by
  unfold plain? at h
  split at h <;> try cases h
  · exact .anyInLine
  · exact .start
  · exact .stop
  · rfl
  · rfl
  · rfl
  · rfl
  · exact .inl rfl
  · rfl
  · refine .literal ?_
    simp only [metacharacters, List.mem_cons, List.not_mem_nil, or_false, not_or]
    exact ⟨‹_›, ‹_›, ‹_›, ‹_›, ‹_›, ‹_›, ‹_›, ‹_›, ‹_›, ‹_›, ‹_›, ‹_›, ‹_›, ‹_›⟩

theorem speltBy_of_escape? {c : Char} {k : PatternToken} (h : escape? c = some k) :
    k.SpeltBy ['\\', c] := by
  unfold escape? at h
  split at h
  · cases h
    exact .blank
  · cases h
    exact .word
  · split at h
    · cases h
    · rename_i hc
      cases h
      simp only [Bool.or_eq_true, decide_eq_true_eq, not_or, Bool.not_eq_true, Nat.not_lt] at hc
      exact .escaped ⟨hc.1.2, hc.2, hc.1.1⟩

theorem exists_members {ms : List Char} {t : Text} {ks : List PatternToken}
    (h : scanWith? (some ms) t = some ks) : ∃ cs r ks', t = cs ++ ']' :: r ∧
      (∀ c ∈ cs, c ∉ listSigns) ∧ ms ++ cs ≠ [] ∧
      ks = .one (.anyOf (ms.reverse ++ cs)) :: ks' ∧ scan? r = some ks' := by
  induction t generalizing ms with
  | nil => cases h
  | cons c r ih =>
    rw [scanWith?_cons] at h
    split_ifs at h with hc hm hm
    · obtain ⟨ks', hk, rfl⟩ := Option.map_eq_some_iff.mp h
      refine ⟨[], r, ks', by simpa using hc, by simp, by simpa using hm, by simp, hk⟩
    · obtain ⟨cs, r', ks', rfl, hcs, -, rfl, hk⟩ := ih h
      have hc' : c ∉ listSigns := isMember_iff.mp ⟨by simpa using hc, hm⟩
      refine ⟨c :: cs, r', ks', rfl, ?_, by simp, by simp, hk⟩
      simpa [hc'] using hcs

theorem exists_speltBy_of_special {r : Text} {ks : List PatternToken}
    (h : scan? ('(' :: '?' :: r) = some ks) : ∃ k ks' x r', ks = k :: ks' ∧
      '(' :: '?' :: r = x ++ r' ∧ k.SpeltBy x ∧ scan? r' = some ks' := by
  by_cases hg : ∃ r', r = ':' :: r'
  · obtain ⟨r', rfl⟩ := hg
    rw [scan?_silentGroup, Option.map_eq_some_iff] at h
    obtain ⟨ks', hs, rfl⟩ := h
    exact ⟨openGroup, ks', ['(', '?', ':'], r', rfl, rfl, .inr rfl, hs⟩
  · by_cases hb : ∃ r', r = '-' :: 'u' :: ':' :: '\\' :: 'b' :: ')' :: r'
    · obtain ⟨r', rfl⟩ := hb
      obtain ⟨ks', hs, rfl⟩ := Option.map_eq_some_iff.mp ((scan?_boundary r').symm.trans h)
      exact ⟨boundary, ks', asciiBoundary, r', rfl, rfl, .boundary, hs⟩
    · rw [scan?, scanWith?.eq_6 r (fun r' e => hg ⟨r', e⟩) (fun r' e => hb ⟨r', e⟩)] at h
      cases h

/-- **A text that was read starts with a spelling of the first token**, and the other tokens are read
from the rest. -/
theorem exists_speltBy {t : Text} {ks : List PatternToken} (h : scan? t = some ks) (ht : t ≠ []) :
    ∃ k ks' x r, ks = k :: ks' ∧ t = x ++ r ∧ k.SpeltBy x ∧ scan? r = some ks' := by
  have step : ∀ {k? : Option PatternToken} {r : Text},
      (k?.bind fun k => (scan? r).map (k :: ·)) = some ks →
        ∃ k ks', ks = k :: ks' ∧ k? = some k ∧ scan? r = some ks' := by
    intro k? r h
    obtain ⟨k, hk, h⟩ := Option.bind_eq_some_iff.mp h
    obtain ⟨ks', hs, rfl⟩ := Option.map_eq_some_iff.mp h
    exact ⟨k, ks', rfl, hk, hs⟩
  -- Only a bracket, a backslash and a parenthesis need a look at what follows.
  cases t with
  | nil => exact absurd rfl ht
  | cons c r =>
    by_cases hl : c = '['
    · subst hl
      rw [scan?_list] at h
      obtain ⟨cs, r', ks', rfl, hcs, hne, rfl, hr⟩ := exists_members h
      cases cs with
      | nil => exact absurd rfl hne
      | cons a cs => exact ⟨_, ks', '[' :: (a :: cs ++ [']']), r', rfl, by simp, .anyOf hcs, hr⟩
    by_cases he : c = '\\'
    · subst he
      cases r with
      | nil => cases h
      | cons c r =>
        rw [scan?_escape] at h
        obtain ⟨k, ks', rfl, hk, hs⟩ := step h
        exact ⟨k, ks', ['\\', c], r, rfl, rfl, speltBy_of_escape? hk, hs⟩
    by_cases hg : c = '(' ∧ r.head? = some '?'
    · obtain ⟨rfl, hr⟩ := hg
      obtain ⟨r, rfl⟩ := List.head?_eq_some_iff.mp hr
      exact exists_speltBy_of_special h
    · rw [scan?_plain hl he (fun hc hr => hg ⟨hc, hr⟩)] at h
      obtain ⟨k, ks', rfl, hk, hs⟩ := step h
      exact ⟨k, ks', [c], r, rfl, rfl, speltBy_of_plain? hk, hs⟩

end CommandVetting.PatternToken
