import CommandVetting.Proofs.Audit.Outcome
import CommandVetting.Proofs.Pattern.Following

/-!
# Look-alikes inside a word

Two signs outside ASCII are case variants of ASCII letters, so that they match the letters of a pattern;
but they are no ASCII word characters, so that words end next to them. Inside a word this makes two more
boundaries and takes none away. No pattern asks that there is no boundary, so nothing that is forbidden
becomes allowed.

* `LooksLike c d`: the sign `d` is a case variant of the letter `c`;
* `LooksLike.contains`: the sign is in all the classes of the letter;
* `LooksLike.follows`: a text with the sign inside a word follows the text with the letter;
* **`exists_denial_of_lookAlike`**: look-alikes inside a word never clear a denial.
-/

namespace CommandVetting

/-- The sign outside ASCII is a case variant of the letter. -/
inductive LooksLike : Char → Char → Prop where
  | smallS : LooksLike 's' longS
  | capitalS : LooksLike 'S' longS
  | smallK : LooksLike 'k' kelvinSign
  | capitalK : LooksLike 'K' kelvinSign

namespace LooksLike

variable {a b : Text} {c d x y : Char}

theorem isVariant_eq (h : LooksLike c d) (e : Char) : isVariant e c = isVariant e d := by
  have hfold : foldCase c = foldCase d := by cases h <;> decide
  rw [isVariant, isVariant, hfold]

/-- The letter is an ASCII word character, and both are word characters. -/
theorem isWord (h : LooksLike c d) :
    isAsciiWord c = true ∧ CommandVetting.isWord c = true ∧ CommandVetting.isWord d = true := by
  cases h <;> decide +kernel

/-- **The sign is in all the classes of the letter.** -/
theorem contains (h : LooksLike c d) {k : CharClass} (hk : k.contains c = true) :
    k.contains d = true := by
  cases k with
  | literal e => rwa [CharClass.contains, ← h.isVariant_eq]
  | anyInLine => cases h <;> decide
  | blank => cases h <;> cases hk
  | word => exact h.isWord.2.2
  | anyOf es =>
    obtain ⟨e, he, hv⟩ := List.any_eq_true.mp hk
    exact List.any_eq_true.mpr ⟨e, he, by rwa [← h.isVariant_eq]⟩

/-- **A text with the sign inside a word follows the text with the letter.** Next to the letter there is
no boundary, since both of its neighbours are word characters as well. -/
theorem follows (h : LooksLike c d) (hx : isAsciiWord x = true) (hy : isAsciiWord y = true) :
    Text.Follows (fun e f => e = f ∨ LooksLike e f) (a ++ x :: c :: y :: b) (a ++ x :: d :: y :: b) := by
  have hrefl : ∀ t : Text, List.Forall₂ (fun e f => e = f ∨ LooksLike e f) t t :=
    fun t => List.forall₂_same.mpr fun e _ => .inl rfl
  refine ⟨List.rel_append (hrefl a) (.cons (.inl rfl) (.cons (.inr h) (hrefl _))), ?_⟩
  intro u w u' w' hs ht hu _ hb
  have hlen := hu.length_eq
  have hcons : ∀ e, a ++ x :: e :: y :: b = (a ++ [x]) ++ e :: y :: b := by simp
  rw [hcons] at hs ht
  rcases List.append_eq_append_iff.mp hs with ⟨u₁, rfl, hr⟩ | ⟨w₁, hl, rfl⟩
  · rcases u₁ with _ | ⟨z, _ | ⟨z', u₂⟩⟩
    · -- The place before the letter.
      obtain rfl : c :: y :: b = w := hr
      simp [Text.endsInWord, Text.startsInWord, hx, h.isWord.1] at hb
    · -- The place behind the letter.
      obtain ⟨rfl, rfl⟩ : c = z ∧ y :: b = w := by simpa using hr
      simp [Text.endsInWord, Text.startsInWord, hy, h.isWord.1] at hb
    · obtain ⟨rfl, rfl, rfl⟩ : c = z ∧ y = z' ∧ b = u₂ ++ w := by simpa using hr
      have ht' : u' ++ w' = (a ++ [x] ++ d :: y :: u₂) ++ w := by rw [← ht]; simp
      obtain ⟨rfl, rfl⟩ := List.append_inj ht' (by simpa using hlen.symm)
      have hends : ∀ e, Text.endsInWord (a ++ [x] ++ e :: y :: u₂) = Text.endsInWord (y :: u₂) := by
        intro e
        have hne : a ++ [x] ++ e :: y :: u₂ = (a ++ [x] ++ [e]) ++ (y :: u₂) := by simp
        rw [hne, Text.endsInWord, List.getLast?_append_of_ne_nil _ (List.cons_ne_nil y u₂),
          Text.endsInWord]
      rwa [hends, ← hends c]
  · have ht' : u' ++ w' = u ++ (w₁ ++ d :: y :: b) := by rw [← ht, hl, List.append_assoc]
    obtain ⟨rfl, rfl⟩ := List.append_inj ht' hlen.symm
    rcases w₁ with _ | ⟨z, w₁⟩
    · rw [List.append_nil] at hl
      simp [← hl, Text.endsInWord, Text.startsInWord, hx, h.isWord.1] at hb
    · exact hb

end LooksLike

variable {a b : Text} {c d x y : Char}

theorem Rule.forbids_of_lookAlike {r : Rule} (h : LooksLike c d) (hx : isAsciiWord x = true)
    (hy : isAsciiWord y = true) (hs : r.forbids (a ++ x :: c :: y :: b) = true) :
    r.forbids (a ++ x :: d :: y :: b) = true := by
  rw [forbids_iff_occursIn] at hs ⊢
  refine hs.follow (h.follows hx hy) fun k _ e f hef hk => ?_
  rcases hef with rfl | hef
  · exact hk
  · exact hef.contains hk

/-- **Look-alikes inside a word never clear a denial.** Every rule that forbids a text forbids the text in
which a letter between two ASCII word characters has been replaced by a sign that looks like it, and a
denial of the first stays a denial, by the same rule or one before it. -/
theorem exists_denial_of_lookAlike (h : LooksLike c d) (hx : isAsciiWord x = true)
    (hy : isAsciiWord y = true) :
    (∀ r ∈ Rule.table, r.forbids (a ++ x :: c :: y :: b) = true →
      r.forbids (a ++ x :: d :: y :: b) = true) ∧
    ∀ r ∈ Rule.table, audit (a ++ x :: c :: y :: b) = r.denial →
      ∃ r' : Rule, r'.AtOrBefore r ∧ audit (a ++ x :: d :: y :: b) = r'.denial := by
  refine ⟨fun r _ => Rule.forbids_of_lookAlike h hx hy, fun r hr hs => ?_⟩
  obtain ⟨-, hf⟩ := (audit_eq_denial_iff hr).mp hs
  -- What is trimmed off does not reach the word.
  have htrim : ∀ e, Text.trim (a ++ x :: e :: y :: b) =
      a.trimStart ++ x :: e :: y :: b.trimEnd := by
    intro e
    have hcore := Text.trim_append_append (p := a) (s := [x, e, y]) (q := b) (by simp)
      (by simpa using isPadding_of_isAsciiWord hx) (by simpa using isPadding_of_isAsciiWord hy)
    simpa using hcore
  refine exists_denial_of_forbids hr ?_
  have hforbids := Rule.forbids_of_first? hf
  rw [htrim] at hforbids ⊢
  exact Rule.forbids_of_lookAlike h hx hy hforbids

/-- The kelvin sign inside the name of a command. -/
theorem exists_denial_of_lookAlike_diskpart :
    audit "diskpart" = Rule.diskpart.denial ∧
      ∃ r' : Rule, r'.AtOrBefore Rule.diskpart ∧ audit "dis\u212Apart" = r'.denial := by
  have hs : audit "diskpart" = Rule.diskpart.denial := by decide +kernel
  obtain ⟨-, hdenial⟩ := exists_denial_of_lookAlike (a := "di") (b := "art") .smallK
    (show isAsciiWord 's' = true by decide) (show isAsciiWord 'p' = true by decide)
  exact ⟨hs, hdenial Rule.diskpart (by simp [Rule.table]) hs⟩

/-- At the edge of a word the sign takes the boundary away. -/
example : Rule.shutdown.forbids "shutdown" = true ∧ Rule.shutdown.forbids "\u017Fhutdown" = false := by
  decide +kernel

end CommandVetting
