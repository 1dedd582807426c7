import Mathlib.Tactic.Common
import CommandVetting.Proofs.Text.Letters
import CommandVetting.Proofs.Text.Lines
import CommandVetting.Text.Utf8

/-!
# Decoding

The decoder is compared with the encoding of the standard library, character by character: for each
number of bytes, the decoder accepts exactly the bytes of a character with an encoding of that length.
No byte of a character but the line feed is the byte of a line feed, so that bytes can be cut into lines
before they are decoded or after.

* `Utf8.encode`: the bytes of a text; `isValidUTF8_iff`: what well-formed bytes are;
* `encodeChar_eq_two_iff` and its neighbours: one character;
* **`Utf8.decode?_eq_some_iff`: the decoder undoes the encoding and accepts nothing else**;
* `Utf8.splitOn_encode`: cutting bytes and cutting texts;
* **`Utf8.readLines?_eq_some_iff`**: the lines of a byte stream; `Utf8.readLines?_append`: the lines
  of two streams one after the other.
-/

namespace CommandVetting.Utf8

/-- The bytes of a text. -/
def encode (t : Text) : List UInt8 := t.flatMap String.utf8EncodeChar

@[simp] theorem encode_nil : encode [] = [] := rfl

@[simp] theorem encode_cons (c : Char) (t : Text) :
    encode (c :: t) = String.utf8EncodeChar c ++ encode t := List.flatMap_cons

@[simp] theorem encode_append (t u : Text) : encode (t ++ u) = encode t ++ encode u :=
  List.flatMap_append

theorem toByteArray_eq_iff {b : List UInt8} {t : Text} :
    b.toByteArray = t.utf8Encode ↔ b = encode t := by
  constructor
  · intro h
    have h' := congrArg (fun a : ByteArray => a.data.toList) h
    simpa [List.utf8Encode, encode] using h'
  · rintro rfl
    rfl

theorem isValidUTF8_iff {b : List UInt8} : b.toByteArray.IsValidUTF8 ↔ ∃ t, b = encode t := by
  constructor
  · rintro ⟨t, h⟩
    exact ⟨t, toByteArray_eq_iff.mp h⟩
  · rintro ⟨t, rfl⟩
    exact ⟨t, rfl⟩

/-! ## What the decoder accepts for one character -/

theorem isTail_iff {b : UInt8} : isTail b = true ↔ 0x80 ≤ b.toNat ∧ b.toNat ≤ 0xBF := by
  simp [isTail, UInt8.le_iff_toNat_le]

theorem two?_eq_some_iff {a b : UInt8} {ch : Char} : two? a b = some ch ↔
    0x80 ≤ ch.toNat ∧ ch.toNat < 0x800 ∧
      a.toNat = 0xC0 + ch.toNat / 0x40 ∧ b.toNat = 0x80 + ch.toNat % 0x40 := by
  simp only [two?, low6, Option.ite_none_right_eq_some, Bool.and_eq_true, isTail_iff,
    decide_eq_true_eq, UInt8.le_iff_toNat_le, Option.some.injEq, ← Char.toNat_inj, UInt8.reduceToNat]
  constructor
  · rintro ⟨⟨⟨ha, ha'⟩, hb⟩, h⟩
    rw [toNat_ofNat (by omega)] at h
    omega
  · rintro ⟨h1, h2, ha, hb⟩
    rw [toNat_ofNat (by omega)]
    omega

theorem three?_eq_some_iff {a b c : UInt8} {ch : Char} : three? a b c = some ch ↔
    0x800 ≤ ch.toNat ∧ ch.toNat < 0x10000 ∧ a.toNat = 0xE0 + ch.toNat / 0x1000 ∧
      b.toNat = 0x80 + ch.toNat / 0x40 % 0x40 ∧ c.toNat = 0x80 + ch.toNat % 0x40 := by
  have hch := toNat_range ch
  simp only [three?, low6, Option.ite_none_right_eq_some, Bool.and_eq_true, isTail_iff,
    decide_eq_true_eq, UInt8.le_iff_toNat_le, Option.some.injEq, ← Char.toNat_inj, UInt8.reduceToNat,
    Bool.not_eq_true', Bool.and_eq_false_iff, decide_eq_false_iff_not, UInt8.lt_iff_toNat_lt,
    beq_eq_false_iff_ne, ne_eq, ← UInt8.toNat_inj]
  constructor
  · rintro ⟨⟨⟨⟨⟨⟨ha, ha'⟩, hb⟩, hc⟩, hlong⟩, hsurrogate⟩, h⟩
    rw [toNat_ofNat (by omega)] at h
    omega
  · rintro ⟨h1, h2, ha, hb, hc⟩
    rw [toNat_ofNat (by omega)]
    omega

theorem four?_eq_some_iff {a b c d : UInt8} {ch : Char} : four? a b c d = some ch ↔
    0x10000 ≤ ch.toNat ∧ a.toNat = 0xF0 + ch.toNat / 0x40000 ∧
      b.toNat = 0x80 + ch.toNat / 0x1000 % 0x40 ∧ c.toNat = 0x80 + ch.toNat / 0x40 % 0x40 ∧
      d.toNat = 0x80 + ch.toNat % 0x40 := by
  have hch := toNat_range ch
  simp only [four?, low6, Option.ite_none_right_eq_some, Bool.and_eq_true, isTail_iff,
    decide_eq_true_eq, UInt8.le_iff_toNat_le, Option.some.injEq, ← Char.toNat_inj, UInt8.reduceToNat,
    Bool.not_eq_true', Bool.and_eq_false_iff, decide_eq_false_iff_not, UInt8.lt_iff_toNat_lt,
    beq_eq_false_iff_ne, ne_eq, ← UInt8.toNat_inj]
  constructor
  · rintro ⟨⟨⟨⟨⟨⟨⟨ha, ha'⟩, hb⟩, hc⟩, hd⟩, hlong⟩, hlast⟩, h⟩
    rw [toNat_ofNat (by omega)] at h
    omega
  · rintro ⟨h1, ha, hb, hc, hd⟩
    rw [toNat_ofNat (by omega)]
    omega

theorem two?_eq_none {a b : UInt8} (h : 0xE0 ≤ a.toNat) : two? a b = none := by
  rw [Option.eq_none_iff_forall_ne_some]
  intro ch hch
  have h' := two?_eq_some_iff.mp hch
  omega

theorem three?_eq_none {a b c : UInt8} (h : 0xF0 ≤ a.toNat) : three? a b c = none := by
  rw [Option.eq_none_iff_forall_ne_some]
  intro ch hch
  have h' := three?_eq_some_iff.mp hch
  omega

/-! ## The encoding of one character -/

section Encoding

variable {a b c d : UInt8} {ch : Char}

theorem encodeChar_eq_one_iff :
    String.utf8EncodeChar ch = [a] ↔ ch.toNat < 0x80 ∧ a.toNat = ch.toNat := by
  have hv : ch.val.toNat = ch.toNat := rfl
  simp only [String.utf8EncodeChar, hv]
  split_ifs <;> simp [← UInt8.toNat_inj] <;> omega

theorem encodeChar_eq_two_iff : String.utf8EncodeChar ch = [a, b] ↔ two? a b = some ch := by
  have hv : ch.val.toNat = ch.toNat := rfl
  rw [two?_eq_some_iff]
  simp only [String.utf8EncodeChar, hv]
  split_ifs <;> simp [← UInt8.toNat_inj] <;> omega

theorem encodeChar_eq_three_iff :
    String.utf8EncodeChar ch = [a, b, c] ↔ three? a b c = some ch := by
  have hv : ch.val.toNat = ch.toNat := rfl
  rw [three?_eq_some_iff]
  simp only [String.utf8EncodeChar, hv]
  split_ifs <;> simp [← UInt8.toNat_inj] <;> omega

theorem encodeChar_eq_four_iff :
    String.utf8EncodeChar ch = [a, b, c, d] ↔ four? a b c d = some ch := by
  have hv : ch.val.toNat = ch.toNat := rfl
  have hch := toNat_range ch
  rw [four?_eq_some_iff]
  simp only [String.utf8EncodeChar, hv]
  split_ifs <;> simp [← UInt8.toNat_inj] <;> omega

end Encoding

/-- A character has one to four bytes. -/
theorem encodeChar_cases (ch : Char) :
    (∃ a, String.utf8EncodeChar ch = [a]) ∨ (∃ a b, String.utf8EncodeChar ch = [a, b]) ∨
      (∃ a b c, String.utf8EncodeChar ch = [a, b, c]) ∨
      ∃ a b c d, String.utf8EncodeChar ch = [a, b, c, d] := by
  simp only [String.utf8EncodeChar]
  split_ifs <;> simp

/-! ## Texts -/

theorem decode?_encodeChar (ch : Char) (r : List UInt8) :
    decode? (String.utf8EncodeChar ch ++ r) = (decode? r).map (ch :: ·) := by
  rcases encodeChar_cases ch with ⟨a, e⟩ | ⟨a, b, e⟩ | ⟨a, b, c, e⟩ | ⟨a, b, c, d, e⟩
  · obtain ⟨hlt, ha⟩ := encodeChar_eq_one_iff.mp e
    have ha' : a < 0x80 := by rw [UInt8.lt_iff_toNat_lt, ha]; exact hlt
    rw [e, List.singleton_append, decode?.eq_def]
    simp [ha', ha, Char.ofNat_toNat]
  · have h2 := encodeChar_eq_two_iff.mp e
    have h := two?_eq_some_iff.mp h2
    have ha : ¬ a < 0x80 := by simp [UInt8.lt_iff_toNat_lt]; omega
    rw [e, List.cons_append, decode?.eq_def]
    simp [ha, h2]
  · have h3 := encodeChar_eq_three_iff.mp e
    have h := three?_eq_some_iff.mp h3
    have ha : ¬ a < 0x80 := by simp [UInt8.lt_iff_toNat_lt]; omega
    have h2 : two? a b = none := two?_eq_none (by omega)
    rw [e, List.cons_append, decode?.eq_def]
    simp [ha, h2, h3]
  · have h4 := encodeChar_eq_four_iff.mp e
    have h := four?_eq_some_iff.mp h4
    have ha : ¬ a < 0x80 := by simp [UInt8.lt_iff_toNat_lt]; omega
    have h2 : two? a b = none := two?_eq_none (by omega)
    have h3 : three? a b c = none := three?_eq_none (by omega)
    rw [e, List.cons_append, decode?.eq_def]
    simp [ha, h2, h3, h4]

theorem decode?_encode (t : Text) : decode? (encode t) = some t := by
  induction t with
  | nil => rfl
  | cons c t ih => rw [encode_cons, decode?_encodeChar, ih, Option.map_some]

theorem eq_encode_of_decode? {b : List UInt8} {t : Text} (h : decode? b = some t) :
    b = encode t := by
  fun_induction decode? b generalizing t with
  | case1 =>
    obtain rfl := Option.some.inj h
    rfl
  | case2 a r ha ih =>
    obtain ⟨u, hu, rfl⟩ := Option.map_eq_some_iff.mp h
    have hlt : a.toNat < 0x80 := ha
    have hn : (Char.ofNat a.toNat).toNat = a.toNat := toNat_ofNat (by omega)
    have hc : String.utf8EncodeChar (Char.ofNat a.toNat) = [a] :=
      encodeChar_eq_one_iff.mpr (by omega)
    rw [encode_cons, hc, ← ih hu]
    rfl
  | case4 a ha b r ch hch ih =>
    obtain ⟨u, hu, rfl⟩ := Option.map_eq_some_iff.mp h
    rw [encode_cons, encodeChar_eq_two_iff.mpr hch, ← ih hu]
    rfl
  | case6 a ha b _ c r ch hch ih =>
    obtain ⟨u, hu, rfl⟩ := Option.map_eq_some_iff.mp h
    rw [encode_cons, encodeChar_eq_three_iff.mpr hch, ← ih hu]
    rfl
  | case8 a ha b _ c _ d r ch hch ih =>
    obtain ⟨u, hu, rfl⟩ := Option.map_eq_some_iff.mp h
    rw [encode_cons, encodeChar_eq_four_iff.mpr hch, ← ih hu]
    rfl
  | case3 | case5 | case7 | case9 => cases h

/-- **The decoder undoes the encoding and accepts nothing else.** -/
theorem decode?_eq_some_iff {b : List UInt8} {t : Text} : decode? b = some t ↔ b = encode t := by
  constructor
  · exact eq_encode_of_decode?
  · rintro rfl
    exact decode?_encode t

theorem encode_injective {t u : Text} (h : encode t = encode u) : t = u := by
  have h' := decode?_encode t
  rw [h, decode?_encode, Option.some.injEq] at h'
  exact h'.symm

/-! ## Lines -/

theorem mem_encodeChar_iff {ch : Char} : 0x0A ∈ String.utf8EncodeChar ch ↔ ch = '\n' := by
  constructor
  · intro h
    rcases encodeChar_cases ch with ⟨a, e⟩ | ⟨a, b, e⟩ | ⟨a, b, c, e⟩ | ⟨a, b, c, d, e⟩
    · have h1 := encodeChar_eq_one_iff.mp e
      rw [e] at h
      simp [← UInt8.toNat_inj] at h
      rw [← Char.toNat_inj, ← h1.2, ← h]
      rfl
    · have h2 := two?_eq_some_iff.mp (encodeChar_eq_two_iff.mp e)
      rw [e] at h
      simp [← UInt8.toNat_inj] at h
      omega
    · have h3 := three?_eq_some_iff.mp (encodeChar_eq_three_iff.mp e)
      rw [e] at h
      simp [← UInt8.toNat_inj] at h
      omega
    · have h4 := four?_eq_some_iff.mp (encodeChar_eq_four_iff.mp e)
      rw [e] at h
      simp [← UInt8.toNat_inj] at h
      omega
  · rintro rfl
    decide

theorem mem_encode_iff {t : Text} : 0x0A ∈ encode t ↔ '\n' ∈ t := by
  simp [encode, mem_encodeChar_iff]

theorem encode_append_newline (t u : Text) :
    encode (t ++ '\n' :: u) = encode t ++ 0x0A :: encode u := by
  have h : String.utf8EncodeChar '\n' = [0x0A] := by decide
  rw [encode_append, encode_cons, h]
  rfl

/-- **Cutting the bytes of a text gives the bytes of its pieces.** -/
theorem splitOn_encode (t : Text) :
    (encode t).splitOn 0x0A = (t.splitOn '\n').map encode := by
  induction t using cut_induction '\n' with
  | piece t h =>
    rw [List.splitOn_eq_singleton h, List.splitOn_eq_singleton (mt mem_encode_iff.mp h)]
    rfl
  | cut t u h ih =>
    rw [encode_append_newline, List.splitOn_append_cons_self_of_not_mem (mt mem_encode_iff.mp h),
      List.splitOn_append_cons_self_of_not_mem h, ih]
    rfl

/-- Bytes all of whose pieces can be decoded are the bytes of a text. -/
theorem exists_encode_of_pieces {b : List UInt8} (h : ∀ l ∈ b.splitOn 0x0A, decode? l ≠ none) :
    ∃ t, b = encode t := by
  induction b using cut_induction (0x0A : UInt8) with
  | piece b hb =>
    rw [List.splitOn_eq_singleton hb] at h
    obtain ⟨t, ht⟩ := Option.ne_none_iff_exists'.mp (h b (List.mem_singleton.mpr rfl))
    exact ⟨t, eq_encode_of_decode? ht⟩
  | cut b r hb ih =>
    rw [List.splitOn_append_cons_self_of_not_mem hb] at h
    obtain ⟨t, ht⟩ := Option.ne_none_iff_exists'.mp (h b List.mem_cons_self)
    obtain ⟨u, rfl⟩ := ih fun l hl => h l (List.mem_cons_of_mem _ hl)
    exact ⟨t ++ '\n' :: u, by rw [encode_append_newline, eq_encode_of_decode? ht]⟩

/-- **Some line of a byte stream cannot be decoded exactly when the stream is no text.** -/
theorem exists_undecodable_iff {b : List UInt8} :
    (∃ l ∈ b.splitOn 0x0A, decode? l = none) ↔ ¬ ∃ t, b = encode t := by
  constructor
  · rintro ⟨l, hl, h⟩ ⟨t, rfl⟩
    rw [splitOn_encode] at hl
    obtain ⟨u, -, rfl⟩ := List.mem_map.mp hl
    rw [decode?_encode] at h
    cases h
  · intro h
    by_contra hall
    push Not at hall
    exact h (exists_encode_of_pieces hall)

theorem mapM_decode?_eq_some_iff {bs : List (List UInt8)} {ts : List Text} :
    bs.mapM decode? = some ts ↔ bs = ts.map encode := by
  induction bs generalizing ts with
  | nil => cases ts <;> simp
  | cons b bs ih =>
    rw [List.mapM_cons]
    cases ts with
    | nil => simp [Option.bind_eq_some_iff]
    | cons t ts => simp [Option.bind_eq_some_iff, decode?_eq_some_iff, ih]

/-- **The lines of a byte stream are the lines of the text that it encodes.** -/
theorem readLines?_eq_some_iff {b : List UInt8} {ls : List Text} :
    readLines? b = some ls ↔ ∃ t, b = encode t ∧ ls = t.lines := by
  rw [readLines?, pieces_eq_splitOn, Option.map_eq_some_iff]
  constructor
  · rintro ⟨ps, hps, rfl⟩
    rw [mapM_decode?_eq_some_iff] at hps
    have hall : ∀ l ∈ b.splitOn 0x0A, decode? l ≠ none := by
      intro l hl
      rw [hps] at hl
      obtain ⟨t, -, rfl⟩ := List.mem_map.mp hl
      simp [decode?_encode]
    obtain ⟨t, rfl⟩ := exists_encode_of_pieces hall
    rw [splitOn_encode] at hps
    have hps' : t.splitOn '\n' = ps := List.map_injective_iff.mpr (fun _ _ => encode_injective) hps
    exact ⟨t, rfl, by rw [Text.lines, pieces_eq_splitOn, hps']⟩
  · rintro ⟨t, rfl, rfl⟩
    refine ⟨t.splitOn '\n', ?_, by rw [Text.lines, pieces_eq_splitOn]⟩
    rw [splitOn_encode, mapM_decode?_eq_some_iff]

/-- Bytes that end with a line feed spell a text that does. -/
theorem getLast?_of_encode {t : Text} (h : ∀ b ∈ (encode t).getLast?, b = 0x0A) :
    ∀ c ∈ t.getLast?, c = '\n' := by
  intro c hc
  obtain ⟨u, rfl⟩ := List.getLast?_eq_some_iff.mp hc
  have hne : String.utf8EncodeChar c ≠ [] := by
    rcases encodeChar_cases c with ⟨a, e⟩ | ⟨a, b, e⟩ | ⟨a, b, d, e⟩ | ⟨a, b, d, f, e⟩ <;> simp [e]
  have hlast := List.getLast?_eq_some_getLast hne
  have hbyte : (String.utf8EncodeChar c).getLast hne = 0x0A := by
    refine h _ ?_
    rw [encode_append, encode_cons, encode_nil, List.append_nil, List.getLast?_append, hlast]
    rfl
  exact mem_encodeChar_iff.mp (hbyte ▸ List.getLast_mem hne)

/-- **The lines of two byte streams one after the other**, of which the first has ended its last
line. -/
theorem readLines?_append {a b : List UInt8} {ls ms : List Text} (ha : readLines? a = some ls)
    (hb : readLines? b = some ms) (h : ∀ x ∈ a.getLast?, x = 0x0A) :
    readLines? (a ++ b) = some (ls ++ ms) := by
  obtain ⟨t, rfl, rfl⟩ := readLines?_eq_some_iff.mp ha
  obtain ⟨u, rfl, rfl⟩ := readLines?_eq_some_iff.mp hb
  rw [readLines?_eq_some_iff, ← Text.lines_append (getLast?_of_encode h)]
  exact ⟨t ++ u, (encode_append t u).symm, rfl⟩

theorem readLines?_eq_none_iff {b : List UInt8} : readLines? b = none ↔ ¬ ∃ t, b = encode t := by
  rw [Option.eq_none_iff_forall_ne_some]
  constructor
  · rintro h ⟨t, ht⟩
    exact h t.lines (readLines?_eq_some_iff.mpr ⟨t, ht, rfl⟩)
  · intro h ls hls
    obtain ⟨t, ht, -⟩ := readLines?_eq_some_iff.mp hls
    exact h ⟨t, ht⟩

end CommandVetting.Utf8
