import CommandVetting.Proofs.Audit.Outcome
import CommandVetting.Proofs.Pattern.Following

/-!
# What the rules see of a character

The patterns of the rules name ASCII characters, white space, word characters and the line feed, and no
other character by itself. So a rule cannot tell two characters apart that are alike in this, and texts
whose characters are alike are judged alike.

* `Alike`: characters that no rule tells apart;
* `CharClass.isAscii`, `Alike.contains_eq`: a class that names ASCII characters only has both of two alike
  characters or none;
* `Rule.forbids_alike`: alike texts are forbidden by the same rules;
* **`forbids_alike_agree`**: alike texts get the same verdict, in particular texts that are equal up to
  case.
-/

namespace CommandVetting

/-! ## Alike characters -/

/-- **No rule tells the characters apart**: they are the same, or the same ASCII letter up to case, or two
characters outside ASCII of which neither folds to an ASCII letter, both or neither are word characters,
and both or neither are white space. -/
inductive Alike : Char → Char → Prop where
  | same (c : Char) : Alike c c
  | ascii {c d : Char} (hc : c.toNat < 0x80) (hd : d.toNat < 0x80) (h : c.toLower = d.toLower) :
    Alike c d
  | foreign {c d : Char} (hc : 0x80 ≤ c.toNat) (hd : 0x80 ≤ d.toNat) (hcs : c ≠ longS)
    (hck : c ≠ kelvinSign) (hds : d ≠ longS) (hdk : d ≠ kelvinSign) (word : isWord c = isWord d)
    (blank : isBlank c = isBlank d) : Alike c d

/-- The characters that the class names are ASCII. -/
def CharClass.isAscii : CharClass → Bool
  | literal c => c.toNat < 0x80
  | anyOf cs => cs.all fun c => c.toNat < 0x80
  | anyInLine | blank | word => true

namespace Alike

variable {a c d : Char}

theorem iff_or : Alike c d ↔ c = d ∨
    (c.toNat < 0x80 ∧ d.toNat < 0x80 ∧ c.toLower = d.toLower) ∨
    0x80 ≤ c.toNat ∧ 0x80 ≤ d.toNat ∧ c ≠ longS ∧ c ≠ kelvinSign ∧ d ≠ longS ∧ d ≠ kelvinSign ∧
      isWord c = isWord d ∧ isBlank c = isBlank d := by
  constructor
  · intro h
    cases h with
    | same => exact .inl rfl
    | ascii hc hd h => exact .inr (.inl ⟨hc, hd, h⟩)
    | foreign hc hd hcs hck hds hdk word blank =>
      exact .inr (.inr ⟨hc, hd, hcs, hck, hds, hdk, word, blank⟩)
  · rintro (rfl | ⟨hc, hd, h⟩ | ⟨hc, hd, hcs, hck, hds, hdk, word, blank⟩)
    · exact .same c
    · exact .ascii hc hd h
    · exact .foreign hc hd hcs hck hds hdk word blank

instance : DecidableRel Alike := fun _ _ => decidable_of_iff _ iff_or.symm

theorem symm (h : Alike c d) : Alike d c := by
  cases h with
  | same => exact .same c
  | ascii hc hd h => exact .ascii hd hc h.symm
  | foreign hc hd hcs hck hds hdk word blank =>
    exact .foreign hd hc hds hdk hcs hck word.symm blank.symm

/-- A property of ASCII characters that case does not change is the same for both. -/
theorem of_toLower {P : Char → Bool} (hP : ∀ n < 0x80, P (Char.ofNat n) = P (Char.ofNat n).toLower)
    (hc : c.toNat < 0x80) (hd : d.toNat < 0x80) (h : c.toLower = d.toLower) : P c = P d := by
  have hlower : ∀ {c : Char}, c.toNat < 0x80 → P c = P c.toLower :=
    forall_ascii (P := fun c => P c = P c.toLower) hP
  rw [hlower hc, hlower hd, h]

theorem isBlank_eq (h : Alike c d) : isBlank c = isBlank d := by
  cases h with
  | same => rfl
  | ascii hc hd h => exact of_toLower (by decide) hc hd h
  | foreign _ _ _ _ _ _ _ blank => exact blank

theorem isWord_eq (h : Alike c d) : isWord c = isWord d := by
  cases h with
  | same => rfl
  | ascii hc hd h => exact of_toLower (by decide) hc hd h
  | foreign _ _ _ _ _ _ word _ => exact word

theorem isAsciiWord_eq (h : Alike c d) : isAsciiWord c = isAsciiWord d := by
  cases h with
  | same => rfl
  | ascii hc hd h => rw [← isAsciiWord_toLower, h, isAsciiWord_toLower]
  | foreign hc hd => rw [isAsciiWord_of_le hc, isAsciiWord_of_le hd]

theorem isNewline_eq (h : Alike c d) : (c != '\n') = (d != '\n') := by
  have hne : ∀ {c : Char}, 0x80 ≤ c.toNat → (c != '\n') = true := by
    intro c hc
    rw [bne_iff_ne]
    rintro rfl
    exact absurd hc (by decide)
  cases h with
  | same => rfl
  | ascii hc hd h => exact of_toLower (P := (· != '\n')) (by decide) hc hd h
  | foreign hc hd => rw [hne hc, hne hd]

/-- **An ASCII character has both as its case variants or none.** -/
theorem isVariant_eq (h : Alike c d) (ha : a.toNat < 0x80) : isVariant a c = isVariant a d := by
  have hascii : ∀ {c : Char}, c.toNat < 0x80 → foldCase c = c.toLower := by
    intro c hc
    refine foldCase_eq_toLower ?_ ?_
    · rintro rfl
      exact absurd hc (by decide)
    · rintro rfl
      exact absurd hc (by decide)
  have hforeign : ∀ {c : Char}, 0x80 ≤ c.toNat → c ≠ longS → c ≠ kelvinSign →
      isVariant a c = false := by
    intro c hc hs hk
    have hfold : (foldCase a).toNat < 0x80 :=
      forall_ascii (P := fun a => (foldCase a).toNat < 0x80) (by decide) ha
    rw [isVariant, foldCase_eq_toLower hs hk, toLower_of_le hc, beq_eq_false_iff_ne]
    intro e
    rw [e] at hfold
    omega
  cases h with
  | same => rfl
  | ascii hc hd h => rw [isVariant, isVariant, hascii hc, hascii hd, h]
  | foreign hc hd hcs hck hds hdk => rw [hforeign hc hcs hck, hforeign hd hds hdk]

/-- **A class that names ASCII characters only has both characters or none.** -/
theorem contains_eq (h : Alike c d) {k : CharClass} (hk : k.isAscii = true) :
    k.contains c = k.contains d := by
  cases k with
  | literal a => exact h.isVariant_eq (by simpa [CharClass.isAscii] using hk)
  | anyInLine => exact h.isNewline_eq
  | blank => exact h.isBlank_eq
  | word => exact h.isWord_eq
  | anyOf cs =>
    have hcs : ∀ a ∈ cs, a.toNat < 0x80 := by simpa [CharClass.isAscii] using hk
    rw [CharClass.contains, CharClass.contains, Bool.eq_iff_iff, List.any_eq_true, List.any_eq_true]
    exact exists_congr fun a => and_congr_right fun ha => by rw [h.isVariant_eq (hcs a ha)]

end Alike

/-! ## Alike texts -/

variable {s t : Text}

/-- Alike texts have the same boundaries. -/
theorem follows_of_alike (h : List.Forall₂ Alike s t) : Text.Follows Alike s t := by
  refine ⟨h, fun {u w u' w'} _ _ hu hw hb => ?_⟩
  have hends : u'.endsInWord = u.endsInWord := by
    have hrev := List.rel_reverse hu
    rw [Text.endsInWord, Text.endsInWord, ← List.head?_reverse, ← List.head?_reverse]
    generalize u.reverse = x, u'.reverse = y at hrev
    cases hrev with
    | nil => rfl
    | cons hcd => exact hcd.symm.isAsciiWord_eq
  have hstarts : w'.startsInWord = w.startsInWord := by
    cases hw with
    | nil => rfl
    | cons hcd => exact hcd.symm.isAsciiWord_eq
  rwa [hends, hstarts]

theorem Rule.isAscii_classes {r : Rule} (hr : r ∈ table) :
    ∀ k ∈ r.pattern.classes, k.isAscii = true := by
  have hall : ∀ r ∈ table, r.pattern.classes.all CharClass.isAscii = true := by decide +kernel
  exact List.all_eq_true.mp (hall r hr)

theorem Rule.forbids_of_alike {r : Rule} (hr : r ∈ table) (h : List.Forall₂ Alike s t)
    (hs : r.forbids s = true) : r.forbids t = true := by
  rw [forbids_iff_occursIn] at hs ⊢
  refine hs.follow (follows_of_alike h) fun k hk c d hcd hc => ?_
  rwa [← hcd.contains_eq (isAscii_classes hr k hk)]

/-- **Alike texts are forbidden by the same rules.** -/
theorem Rule.forbids_alike {r : Rule} (hr : r ∈ table) (h : List.Forall₂ Alike s t) :
    r.forbids s = r.forbids t := by
  have hsymm : List.Forall₂ Alike t s := List.Forall₂.flip (h.imp fun _ _ hcd => hcd.symm)
  rw [Bool.eq_iff_iff]
  exact ⟨forbids_of_alike hr h, forbids_of_alike hr hsymm⟩

/-- **Alike texts with the same byte order marks get the same verdict.** -/
theorem audit_alike (h : List.Forall₂ (fun c d => Alike c d ∧ (c = byteOrderMark ↔ d = byteOrderMark)) s t) :
    audit s = audit t := by
  have hpadding : ∀ c d, Alike c d ∧ (c = byteOrderMark ↔ d = byteOrderMark) →
      isPadding c = isPadding d := by
    rintro c d ⟨hcd, hmark⟩
    rw [isPadding, isPadding, hcd.isBlank_eq, Bool.eq_iff_iff]
    simp [hmark]
  have htrim := (Text.forall₂_trim hpadding h).imp fun _ _ hcd => hcd.1
  refine audit_eq_of_forbids_eq ?_ fun r hr => Rule.forbids_alike hr htrim
  rw [← List.length_eq_zero_iff, ← List.length_eq_zero_iff, htrim.length_eq]

theorem alike_of_toLower_eq {c d : Char} (h : c.toLower = d.toLower) :
    Alike c d ∧ (c = byteOrderMark ↔ d = byteOrderMark) := by
  have hascii : c.toNat < 0x80 ↔ d.toNat < 0x80 := by
    rw [← toLower_lt_iff c, h, toLower_lt_iff]
  by_cases hc : c.toNat < 0x80
  · have hmark : ∀ {c : Char}, c.toNat < 0x80 → c ≠ byteOrderMark := by
      rintro c hc rfl
      exact absurd hc (by decide)
    exact ⟨.ascii hc (hascii.mp hc) h, iff_of_false (hmark hc) (hmark (hascii.mp hc))⟩
  · rw [toLower_of_le (by omega), toLower_of_le (by omega)] at h
    exact ⟨h ▸ .same c, by rw [h]⟩

/-- **Only the kinds of characters count.** Texts of the same length whose characters are alike place by
place are forbidden by the same rules, and get the same verdict if they have byte order marks in the same
places. In particular the case of ASCII letters does not count. -/
theorem forbids_alike_agree (s t : Text) :
    (List.Forall₂ Alike s t → (∀ r ∈ Rule.table, r.forbids s = r.forbids t) ∧
      (List.Forall₂ (fun c d => c = byteOrderMark ↔ d = byteOrderMark) s t → audit s = audit t)) ∧
    (s.EqUpToCase t → audit s = audit t) := by
  refine ⟨fun h => ⟨fun r hr => Rule.forbids_alike hr h, fun hmarks => ?_⟩, fun h => ?_⟩
  · exact audit_alike (List.Forall₂.mp (fun _ _ hcd hmark => ⟨hcd, hmark⟩) h hmarks)
  · have hlower : List.Forall₂ Eq (s.map Char.toLower) (t.map Char.toLower) := by
      rw [List.forall₂_eq_eq_eq]
      exact h
    rw [List.forall₂_map_left_iff, List.forall₂_map_right_iff] at hlower
    exact audit_alike (hlower.imp fun _ _ => alike_of_toLower_eq)

/-- Capitals, other white space, and a letter of another script next to the word. -/
theorem forbids_alike_agree_mkfs :
    let s : Text := "\u00E9mkfs\u00A0-t"
    let t : Text := "\u8FD0MkFS\u3000-T"
    List.Forall₂ Alike s t ∧ audit s = audit t ∧ audit t = Rule.mkfs.denial := by
  intro s t
  have h : List.Forall₂ Alike s t := by decide +kernel
  have hmarks : List.Forall₂ (fun c d => c = byteOrderMark ↔ d = byteOrderMark) s t := by
    decide +kernel
  obtain ⟨halike, -⟩ := forbids_alike_agree s t
  exact ⟨h, (halike h).2 hmarks, by decide +kernel⟩

end CommandVetting
