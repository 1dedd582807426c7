import CommandVetting.Proofs.Json.Grammar
import CommandVetting.Proofs.Text.Letters

/-!
# Reading literals

The reader of string literals and the reader of numbers follow the grammar: what is spelled by the
grammar is read from in front of whatever may follow it, and nothing else is read.

* `hexValues?_eq_some_iff`, `unescape?_eq_some_iff`: the parts of an escape;
* `SpellsChar.read`: **one character, however it is spelled**;
* `SpellsText.read`, `spellsText_of_readString?`: string literals;
* `Recognizes`: a reader of the texts of a kind; **`recognizes_numeral`**: the reader of numbers.
-/

namespace CommandVetting.Json

/-- What is behind a part that was put in front of what has been read. -/
theorem exists_of_map_fst {α β : Type} (f : α → β) {o : Option (α × Text)} {b : β} {r : Text}
    (h : o.map (fun p => (f p.1, p.2)) = some (b, r)) : ∃ a, o = some (a, r) ∧ f a = b := by
  obtain ⟨⟨a, r'⟩, ho, he⟩ := Option.map_eq_some_iff.mp h
  obtain ⟨hb, rfl⟩ := Prod.mk.inj he
  exact ⟨a, ho, hb⟩

/-! ## Strings -/

theorem hexValue?_of_le {c : Char} (h : 0x80 ≤ c.toNat) : hexValue? c = none := by
  have hd : ¬ c.toNat ≤ 0x39 := by omega
  have hs : ¬ c.toNat ≤ 0x66 := by omega
  have hl : ¬ c.toNat ≤ 0x46 := by omega
  simp [hexValue?, Char.le_def, UInt32.le_iff_toNat_le, hd, hs, hl]

theorem IsHexDigit.lt {c : Char} {n : Nat} (h : IsHexDigit c n) : c.toNat < 0x80 := by
  by_contra hc
  have hdigit : ∀ n < 0x10, (Nat.digitChar n).toNat < 0x80 := by decide
  rw [IsHexDigit, toLower_of_le (by omega)] at h
  have := hdigit n h.1
  rw [← h.2] at this
  omega

theorem hexValue?_eq_some_iff {c : Char} {n : Nat} : hexValue? c = some n ↔ IsHexDigit c n := by
  by_cases hc : c.toNat < 0x80
  · have hbound : ∀ m ∈ hexValue? c, m < 0x10 :=
      forall_ascii (P := fun c => ∀ m ∈ hexValue? c, m < 0x10) (by decide +kernel) hc
    have hvalue : ∀ m < 0x10, hexValue? c = some m ↔ c.toLower = Nat.digitChar m :=
      forall_ascii (P := fun c => ∀ m < 0x10, hexValue? c = some m ↔ c.toLower = Nat.digitChar m)
        (by decide +kernel) hc
    constructor
    · intro h
      exact ⟨hbound n h, (hvalue n (hbound n h)).mp h⟩
    · rintro ⟨hn, h⟩
      exact (hvalue n hn).mpr h
  · rw [hexValue?_of_le (by omega)]
    exact iff_of_false (by simp) fun h => hc h.lt

theorem hexValues?_eq_some_iff {a b c d : Char} {n : Nat} :
    hexValues? a b c d = some n ↔ SpellsUnit [a, b, c, d] n := by
  have hv : hexValues? a b c d = some n ↔ ∃ k l m o, hexValue? a = some k ∧ hexValue? b = some l ∧
      hexValue? c = some m ∧ hexValue? d = some o ∧ ((k * 0x10 + l) * 0x10 + m) * 0x10 + o = n := by
    simp only [hexValues?, Option.bind_eq_bind, Option.pure_def, Option.bind_eq_some_iff,
      Option.some.injEq]
    constructor
    · rintro ⟨k, hk, l, hl, m, hm, o, ho, h⟩
      exact ⟨k, l, m, o, hk, hl, hm, ho, by omega⟩
    · rintro ⟨k, l, m, o, hk, hl, hm, ho, h⟩
      exact ⟨k, hk, l, hl, m, hm, o, ho, by omega⟩
  rw [hv]
  constructor
  · rintro ⟨k, l, m, o, hk, hl, hm, ho, rfl⟩
    rw [hexValue?_eq_some_iff] at hk hl hm ho
    exact .digits hk hl hm ho
  · rintro ⟨ha, hb, hc, hd⟩
    rw [← hexValue?_eq_some_iff] at ha hb hc hd
    exact ⟨_, _, _, _, ha, hb, hc, hd, rfl⟩

/-- A unit is below 10000, in hexadecimal digits. -/
theorem SpellsUnit.lt {u : Text} {n : Nat} : SpellsUnit u n → n < 0x10000
  | .digits ha hb hc hd => by
    have := ha.1
    have := hb.1
    have := hc.1
    have := hd.1
    omega

theorem unescape?_eq_some_iff {e c : Char} : unescape? e = some c ↔ (e, c) ∈ shortEscapes := by
  simp only [shortEscapes, List.mem_cons, Prod.mk.injEq]
  unfold unescape?
  split <;> simp_all [eq_comm]

theorem SpellsUnit.exists_hexValues? {u : Text} {n : Nat} (h : SpellsUnit u n) :
    ∃ a b c d, u = [a, b, c, d] ∧ hexValues? a b c d = some n := by
  cases h with
  | digits ha hb hc hd => exact ⟨_, _, _, _, rfl, hexValues?_eq_some_iff.mpr (.digits ha hb hc hd)⟩

theorem isHigh_iff {n : Nat} : isHigh n = true ↔ 0xD800 ≤ n ∧ n ≤ 0xDBFF := by simp [isHigh]

theorem isLow_iff {n : Nat} : isLow n = true ↔ 0xDC00 ≤ n ∧ n ≤ 0xDFFF := by simp [isLow]

theorem ofHalves_eq {c : Char} {n : Nat} (hc : c.toNat = 0x10000 + n) :
    ofHalves (0xD800 + n / 0x400) (0xDC00 + n % 0x400) = c := by
  have hn := toNat_range c
  have hval : 0x10000 + (0xD800 + n / 0x400 - 0xD800) * 0x400 + (0xDC00 + n % 0x400 - 0xDC00) =
      c.toNat := by
    omega
  rw [ofHalves, hval, Char.ofNat_toNat]

/-- **The reader takes one character** from in front of any text. -/
theorem SpellsChar.read {t : Text} {c : Char} (h : SpellsChar t c) (r : Text) :
    readString? (t ++ r) = (readString? r).map fun p => (c :: p.1, p.2) := by
  cases h with
  | plain h hq hb =>
    show readString? (c :: r) = _
    rw [readString?]
    · exact if_neg (by omega)
    · exact hq
    · exact fun _ _ _ _ _ h => absurd h hb
    · exact fun _ _ h => absurd h hb
  | @short e c h =>
    have he : e ≠ 'u' := by
      rintro rfl
      simp [shortEscapes] at h
    show readString? ('\\' :: e :: r) = _
    rw [readString?, unescape?_eq_some_iff.mpr h]
    · rfl
    · exact fun _ _ _ _ _ h => absurd h he
  | unit h =>
    obtain ⟨x, y, z, w, rfl, hu⟩ := h.exists_hexValues?
    have hrange := toNat_range c
    have hhigh : ¬ isHigh c.toNat = true := by rw [isHigh_iff]; omega
    have hlow : ¬ isLow c.toNat = true := by rw [isLow_iff]; omega
    show readString? ('\\' :: 'u' :: x :: y :: z :: w :: r) = _
    rw [readString?, hu]
    show (if _ then _ else _) = _
    rw [if_neg hhigh, if_neg hlow, Char.ofNat_toNat]
  | @halves u v c n hc hu hv =>
    obtain ⟨x, y, z, w, rfl, hn⟩ := hu.exists_hexValues?
    obtain ⟨x', y', z', w', rfl, hm⟩ := hv.exists_hexValues?
    have hrange := toNat_range c
    have hhigh : isHigh (0xD800 + n / 0x400) = true := by rw [isHigh_iff]; omega
    have hlow : isLow (0xDC00 + n % 0x400) = true := by rw [isLow_iff]; omega
    show readString?
      ('\\' :: 'u' :: x :: y :: z :: w :: '\\' :: 'u' :: x' :: y' :: z' :: w' :: r) = _
    rw [readString?, hn]
    show (if _ then _ else _) = _
    rw [if_pos hhigh]
    show (hexValues? x' y' z' w').bind _ = _
    rw [hm]
    show (if _ then _ else _) = _
    rw [if_pos hlow, ofHalves_eq hc]

/-- **The reader reads a string literal** up to the mark behind it. -/
theorem SpellsText.read {t s : Text} (h : SpellsText t s) (r : Text) :
    readString? (t ++ '"' :: r) = some (s, r) := by
  induction h with
  | nil => rfl
  | cons h rest ih => rw [List.append_assoc, h.read, ih]; rfl

/-- A character and what the reader makes of the text behind it. -/
theorem SpellsChar.spells_cons {x t s r : Text} {c : Char} (hx : SpellsChar x c)
    (ih : ∀ {s r : Text}, readString? t = some (s, r) → ∃ u, SpellsText u s ∧ t = u ++ '"' :: r)
    (h : (readString? t).map (fun p => (c :: p.1, p.2)) = some (s, r)) :
    ∃ u, SpellsText u s ∧ x ++ t = u ++ '"' :: r := by
  obtain ⟨s', hr, rfl⟩ := exists_of_map_fst (List.cons _) h
  obtain ⟨u, hu, rfl⟩ := ih hr
  exact ⟨x ++ u, .cons hx hu, by simp⟩

theorem spellsChar_ofNat {u : Text} {n : Nat} (hu : SpellsUnit u n) (hhigh : ¬ isHigh n = true)
    (hlow : ¬ isLow n = true) : SpellsChar ('\\' :: 'u' :: u) (Char.ofNat n) := by
  have hn := hu.lt
  rw [isHigh_iff] at hhigh
  rw [isLow_iff] at hlow
  exact .unit (by rwa [toNat_ofNat (by omega)])

theorem spellsChar_ofHalves {u v : Text} {n m : Nat} (hu : SpellsUnit u n) (hv : SpellsUnit v m)
    (hhigh : isHigh n = true) (hlow : isLow m = true) :
    SpellsChar ('\\' :: 'u' :: (u ++ '\\' :: 'u' :: v)) (ofHalves n m) := by
  rw [isHigh_iff] at hhigh
  rw [isLow_iff] at hlow
  obtain ⟨k, hk⟩ : ∃ k, k = (n - 0xD800) * 0x400 + (m - 0xDC00) := ⟨_, rfl⟩
  have hn : n = 0xD800 + k / 0x400 := by omega
  have hm : m = 0xDC00 + k % 0x400 := by omega
  refine .halves (n := k) ?_ (hn ▸ hu) (hm ▸ hv)
  rw [ofHalves, toNat_ofNat (by omega)]
  omega

/-- **The reader accepts string literals only.** -/
theorem spellsText_of_readString? {t s r : Text} (h : readString? t = some (s, r)) :
    ∃ u, SpellsText u s ∧ t = u ++ '"' :: r := by
  fun_induction readString? t generalizing s r with
  | case1 => cases h
  | case2 r' =>
    obtain ⟨rfl, rfl⟩ := Prod.mk.inj (Option.some.inj h)
    exact ⟨[], .nil, rfl⟩
  | case3 a b c d r' ih2 ih1 =>
    obtain ⟨n, hn, h⟩ := Option.bind_eq_some_iff.mp h
    have hu := hexValues?_eq_some_iff.mp hn
    split at h
    · next hhigh =>
      split at h
      · next e f g h' r'' =>
        obtain ⟨m, hm, h⟩ := Option.bind_eq_some_iff.mp h
        split at h
        · next hlow =>
          have hv := hexValues?_eq_some_iff.mp hm
          exact (spellsChar_ofHalves hu hv hhigh hlow).spells_cons ih2 h
        · cases h
      · cases h
    · next hhigh =>
      split at h
      · cases h
      · next hlow => exact (spellsChar_ofNat hu hhigh hlow).spells_cons ih1 h
  | case4 c r' hne ih1 =>
    obtain ⟨ch, hch, h⟩ := Option.bind_eq_some_iff.mp h
    exact (SpellsChar.short (unescape?_eq_some_iff.mp hch)).spells_cons ih1 h
  | case5 => cases h
  | case6 c r' hq hu hb hc ih1 =>
    by_cases hcb : c = '\\'
    · cases r' with
      | nil => cases h
      | cons d r'' => exact absurd rfl (hb d r'' hcb)
    · exact (SpellsChar.plain (by omega) hq hcb).spells_cons ih1 h

/-! ## Numbers -/

/-- **The reader takes the texts of a kind** from in front of what may follow them, and no others. -/
structure Recognizes (read : Text → Option (Text × Text)) (kind follow : Text → Prop) : Prop where
  sound : ∀ {t u r}, read t = some (u, r) → kind u ∧ t = u ++ r
  complete : ∀ {u r}, kind u → follow r → read (u ++ r) = some (u, r)

/-- The text does not go on with a digit. -/
def NoDigit (r : Text) : Prop := ∀ c ∈ r.head?, c.isDigit = false

/-- The text does not go on with a part of a number. -/
def EndsNumber (r : Text) : Prop := ∀ c ∈ r.head?, c.isDigit = false ∧ c ∉ ['.', 'e', 'E']

theorem EndsNumber.noDigit {r : Text} (h : EndsNumber r) : NoDigit r := fun c hc => (h c hc).1

theorem recognizes_digits : Recognizes readDigits? (fun ds => ds.isDigits = true) NoDigit where
  sound {t u r} h := by
    unfold readDigits? at h
    split_ifs at h with he
    obtain ⟨rfl, rfl⟩ := Prod.mk.inj (Option.some.inj h)
    refine ⟨?_, List.takeWhile_append_dropWhile.symm⟩
    have hall := List.all_takeWhile (p := Char.isDigit) (l := t)
    simp only [Bool.not_eq_true] at he
    simp [Text.isDigits, he, hall]
  complete {u r} h hr := by
    simp only [Text.isDigits, Bool.and_eq_true, List.all_eq_true] at h
    obtain ⟨hne, hall⟩ := h
    obtain ⟨htake, hdrop⟩ := span_append hall hr
    unfold readDigits?
    rw [htake, hdrop, if_neg (by simpa using hne)]

theorem recognizes_whole : Recognizes readWhole? IsWhole NoDigit where
  sound {t u r} h := by
    unfold readWhole? at h
    split at h
    · obtain ⟨rfl, rfl⟩ := Prod.mk.inj (Option.some.inj h)
      exact ⟨.zero, rfl⟩
    · next hne =>
      obtain ⟨hd, rfl⟩ := recognizes_digits.sound h
      refine ⟨.digits hd ?_, rfl⟩
      cases u with
      | nil => simp
      | cons c u =>
        simp only [List.head?_cons, ne_eq, Option.some.injEq]
        rintro rfl
        exact hne _ rfl
  complete {u r} h hr := by
    cases h with
    | zero => rfl
    | digits h h0 =>
      rw [readWhole?, recognizes_digits.complete h hr]
      rintro r' he
      cases u with
      | nil => cases h
      | cons c u => simp_all

theorem recognizes_fraction :
    Recognizes readFraction? IsFraction fun r => NoDigit r ∧ r.head? ≠ some '.' where
  sound {t u r} h := by
    unfold readFraction? at h
    split at h
    · obtain ⟨ds, hr, rfl⟩ := exists_of_map_fst (List.cons _) h
      obtain ⟨hd, rfl⟩ := recognizes_digits.sound hr
      exact ⟨.point hd, rfl⟩
    · obtain ⟨rfl, rfl⟩ := Prod.mk.inj (Option.some.inj h)
      exact ⟨.none, rfl⟩
  complete {u r} h hr := by
    cases h with
    | none =>
      rw [List.nil_append, readFraction?]
      rintro r' rfl
      exact hr.2 rfl
    | point h =>
      show (readDigits? (_ ++ r)).map _ = _
      rw [recognizes_digits.complete h hr.1]
      rfl

theorem recognizes_signed : Recognizes readSigned?
    (fun t => ∃ sign ds : Text, t = sign ++ ds ∧ (sign = [] ∨ sign = ['+'] ∨ sign = ['-']) ∧
      ds.isDigits = true) NoDigit where
  sound {t u r} h := by
    unfold readSigned? at h
    split at h
    · obtain ⟨ds, hr, rfl⟩ := exists_of_map_fst (List.cons _) h
      obtain ⟨hd, rfl⟩ := recognizes_digits.sound hr
      exact ⟨⟨['+'], ds, rfl, .inr (.inl rfl), hd⟩, rfl⟩
    · obtain ⟨ds, hr, rfl⟩ := exists_of_map_fst (List.cons _) h
      obtain ⟨hd, rfl⟩ := recognizes_digits.sound hr
      exact ⟨⟨['-'], ds, rfl, .inr (.inr rfl), hd⟩, rfl⟩
    · obtain ⟨hd, rfl⟩ := recognizes_digits.sound h
      exact ⟨⟨[], u, rfl, .inl rfl, hd⟩, rfl⟩
  complete {u r} h hr := by
    obtain ⟨sign, ds, rfl, hs, hd⟩ := h
    have hread := recognizes_digits.complete hd hr
    rcases hs with rfl | rfl | rfl
    · rw [List.nil_append, readSigned?, hread]
      all_goals
        rintro r' he
        cases ds with
        | nil => cases hd
        | cons c ds =>
          obtain rfl : c = _ := (List.cons.inj he).1
          simp [Text.isDigits] at hd
    · show (readDigits? (ds ++ r)).map _ = _
      rw [hread]
      rfl
    · show (readDigits? (ds ++ r)).map _ = _
      rw [hread]
      rfl

theorem recognizes_exponent : Recognizes readExponent? IsExponent EndsNumber where
  sound {t u r} h := by
    unfold readExponent? at h
    split at h
    · obtain ⟨x, hr, rfl⟩ := exists_of_map_fst (List.cons _) h
      obtain ⟨⟨sign, ds, rfl, hs, hd⟩, rfl⟩ := recognizes_signed.sound hr
      exact ⟨.mark (.inl rfl) hs hd, rfl⟩
    · obtain ⟨x, hr, rfl⟩ := exists_of_map_fst (List.cons _) h
      obtain ⟨⟨sign, ds, rfl, hs, hd⟩, rfl⟩ := recognizes_signed.sound hr
      exact ⟨.mark (.inr rfl) hs hd, rfl⟩
    · obtain ⟨rfl, rfl⟩ := Prod.mk.inj (Option.some.inj h)
      exact ⟨.none, rfl⟩
  complete {u r} h hr := by
    cases h with
    | none =>
      rw [List.nil_append, readExponent?]
      all_goals
        rintro r' rfl
        exact absurd (hr _ rfl).2 (by simp)
    | @mark e sign ds he hs hd =>
      have hread := recognizes_signed.complete ⟨sign, ds, rfl, hs, hd⟩ hr.noDigit
      rcases he with rfl | rfl
      · show (readSigned? (sign ++ ds ++ r)).map _ = _
        rw [hread]
        rfl
      · show (readSigned? (sign ++ ds ++ r)).map _ = _
        rw [hread]
        rfl

theorem IsExponent.noDigit {e r : Text} (he : IsExponent e) (hr : EndsNumber r) :
    NoDigit (e ++ r) ∧ (e ++ r).head? ≠ some '.' := by
  cases he with
  | none => exact ⟨hr.noDigit, fun h => absurd (hr '.' h).2 (by simp)⟩
  | mark he =>
    rcases he with rfl | rfl
    · exact ⟨by rintro c ⟨⟩; rfl, by simp⟩
    · exact ⟨by rintro c ⟨⟩; rfl, by simp⟩

theorem IsFraction.noDigit {f r : Text} (hf : IsFraction f) (hr : NoDigit r) :
    NoDigit (f ++ r) := by
  cases hf with
  | none => exact hr
  | point => rintro c ⟨⟩; rfl

/-- A numeral without a sign. -/
theorem recognizes_unsigned : Recognizes readUnsigned?
    (fun t => ∃ w f e, t = w ++ f ++ e ∧ IsWhole w ∧ IsFraction f ∧ IsExponent e) EndsNumber where
  sound {t u r} h := by
    unfold readUnsigned? at h
    obtain ⟨⟨w, r₁⟩, hw, h⟩ := Option.bind_eq_some_iff.mp h
    obtain ⟨⟨f, r₂⟩, hf, h⟩ := Option.bind_eq_some_iff.mp h
    obtain ⟨⟨e, r₃⟩, he, h⟩ := Option.bind_eq_some_iff.mp h
    obtain ⟨rfl, rfl⟩ := Prod.mk.inj (Option.some.inj h)
    obtain ⟨hwhole, rfl⟩ := recognizes_whole.sound hw
    obtain ⟨hfraction, rfl⟩ := recognizes_fraction.sound hf
    obtain ⟨hexponent, rfl⟩ := recognizes_exponent.sound he
    exact ⟨⟨w, f, e, rfl, hwhole, hfraction, hexponent⟩, by simp⟩
  complete {u r} h hr := by
    obtain ⟨w, f, e, rfl, hw, hf, he⟩ := h
    have hnext := he.noDigit hr
    have hwhole := recognizes_whole.complete hw (hf.noDigit hnext.1)
    have hfraction := recognizes_fraction.complete hf hnext
    have hexponent := recognizes_exponent.complete he hr
    simp [readUnsigned?, hwhole, hfraction, hexponent]

/-- **The reader takes numerals**, and nothing else for a number. -/
theorem recognizes_numeral : Recognizes readNumber? IsNumeral EndsNumber where
  sound {t u r} h := by
    unfold readNumber? at h
    split at h
    · obtain ⟨x, hr, rfl⟩ := exists_of_map_fst (List.cons _) h
      obtain ⟨⟨w, f, e, rfl, hw, hf, he⟩, rfl⟩ := recognizes_unsigned.sound hr
      exact ⟨.parts (.inr rfl) hw hf he, rfl⟩
    · obtain ⟨⟨w, f, e, rfl, hw, hf, he⟩, rfl⟩ := recognizes_unsigned.sound h
      exact ⟨.parts (.inl rfl) hw hf he, rfl⟩
  complete {u r} h hr := by
    obtain @⟨sign, w, f, e, hs, hw, hf, he⟩ := h
    have hread := recognizes_unsigned.complete ⟨w, f, e, rfl, hw, hf, he⟩ hr
    rcases hs with rfl | rfl
    · rw [List.nil_append, readNumber?, hread]
      intro r' he
      obtain ⟨c, x, rfl, hc⟩ := hw.exists_cons
      obtain rfl : c = '-' := (List.cons.inj he).1
      cases hc
    · show (readUnsigned? (w ++ f ++ e ++ r)).map _ = _
      rw [hread]
      rfl

end CommandVetting.Json
