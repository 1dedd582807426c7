import CommandVetting.Event.Filter
import CommandVetting.Proofs.Text.Letters
import CommandVetting.Proofs.Text.Lines

/-!
# Settings of the log filter

A user sets the log filter by the name of a threshold, by a threshold for the whole program, or not at
all; what cannot be read counts as not set.

* `AsksFor`: the settings that ask for one threshold for all events;
* `isLetter`, `Directive.ofText?_name`: **the name of a threshold is a directive for all events**;
* `Filter.ofText?_name`: and a filter by itself;
* **`AsksFor.admits_ofSetting`**: what such a setting shows.
-/

namespace CommandVetting

variable {t : Text} {c : Char} {l : Threshold}

/-- **The setting asks for the threshold**: by its name, in capitals or not; by the name of the program and
an equals sign before it; or by saying nothing that can be read, which asks for the standard one. -/
inductive AsksFor : Option Text → Threshold → Prop where
  | unset : AsksFor none (.upTo .info)
  | name {t : Text} {l : Threshold} (h : (t.map Char.toLower, l) ∈ Threshold.named) :
    AsksFor (some t) l
  | program : AsksFor (some "cmd_audit=debug") (.upTo .debug)
  | unreadable {t : Text} (h : Filter.ofText? t = none) : AsksFor (some t) (.upTo .info)

/-! ## Letters -/

/-- An ASCII letter. -/
def isLetter (c : Char) : Bool := isAsciiWord c && !c.isDigit && c != '_'

theorem isLetter_toLower (c : Char) : isLetter c.toLower = isLetter c :=
  toLower_cases (P := fun c d => isLetter d = isLetter c) (by decide) (fun _ _ => rfl) c

theorem isAsciiWord_of_isLetter (h : isLetter c = true) : isAsciiWord c = true :=
  (Bool.and_eq_true_iff.mp (Bool.and_eq_true_iff.mp h).1).1

theorem lt_of_isLetter (h : isLetter c = true) : c.toNat < 0x80 := by
  by_contra hc
  have hword := isAsciiWord_of_isLetter h
  rw [isAsciiWord_of_le (Nat.le_of_not_lt hc)] at hword
  cases hword

/-- No letter has a meaning of its own in a filter. -/
theorem plain_of_isLetter (h : isLetter c = true) : c ≠ '=' ∧ c ≠ '[' ∧ c ≠ '+' ∧ c.isDigit = false ∧
    Directive.Outline.isStart c = true :=
  forall_ascii (P := fun c => isLetter c = true → c ≠ '=' ∧ c ≠ '[' ∧ c ≠ '+' ∧ c.isDigit = false ∧
    Directive.Outline.isStart c = true) (by decide) (lt_of_isLetter h) h

theorem isBlank_of_isLetter (h : isLetter c = true) : isBlank c = false := by
  have hp := isPadding_of_isAsciiWord (isAsciiWord_of_isLetter h)
  rw [isPadding, Bool.or_eq_false_iff] at hp
  exact hp.1

/-! ## Names -/

theorem Threshold.isLetter_of_mem_named (h : (t.map Char.toLower, l) ∈ Threshold.named) :
    t ≠ [] ∧ ∀ c ∈ t, isLetter c = true := by
  have hall : ∀ x ∈ named, x.1 ≠ [] ∧ x.1.all isLetter = true := by decide +kernel
  obtain ⟨hne, hletters⟩ := hall _ h
  refine ⟨fun ht => hne (by rw [ht]; rfl), fun c hc => ?_⟩
  rw [← isLetter_toLower]
  exact List.all_eq_true.mp hletters _ (List.mem_map_of_mem hc)

theorem Text.toNat?_letters (ht : t ≠ []) (h : ∀ c ∈ t, isLetter c = true) : t.toNat? = none := by
  cases t with
  | nil => exact absurd rfl ht
  | cons c t =>
    obtain ⟨-, -, hplus, hdigit, -⟩ := plain_of_isLetter (h c List.mem_cons_self)
    have hsigned : unsigned (c :: t) = c :: t := by
      unfold unsigned
      split
      · next heq => exact absurd (List.cons.inj heq).1 hplus
      · rfl
    simp [toNat?, hsigned, hdigit]

theorem Threshold.ofText?_name (h : (t.map Char.toLower, l) ∈ Threshold.named) :
    Threshold.ofText? t = some l := by
  have hall : ∀ x ∈ named, named.lookup x.1 = some x.2 := by decide +kernel
  obtain ⟨hne, hletters⟩ := isLetter_of_mem_named h
  rw [ofText?, Text.toNat?_letters hne hletters, Option.bind_none, Option.none_or, ofName?]
  exact hall _ h

theorem Text.trimBlanks_letters (h : ∀ c ∈ t, isLetter c = true) : t.trimBlanks = t := by
  have hself : ∀ u : Text, (∀ c ∈ u, isLetter c = true) → u.dropWhile isBlank = u := by
    intro u hu
    cases u with
    | nil => rfl
    | cons c u =>
      exact List.dropWhile_cons_of_neg (by simp [isBlank_of_isLetter (hu c List.mem_cons_self)])
  rw [trimBlanks, hself t h, hself t.reverse (by simpa using h), List.reverse_reverse]

/-- **The name of a threshold is a directive for all events.** -/
theorem Directive.ofText?_name (h : (t.map Char.toLower, l) ∈ Threshold.named) :
    Directive.ofText? t = some (everywhere l) := by
  obtain ⟨hne, hletters⟩ := Threshold.isLetter_of_mem_named h
  -- The whole text is a target, and nothing follows it.
  have htarget : t.takeWhile (fun c => c != '=' && c != '[') = t := by
    refine List.takeWhile_eq_self_iff.mpr fun c hc => ?_
    obtain ⟨hequals, hbracket, -⟩ := plain_of_isLetter (hletters c hc)
    rw [Bool.and_eq_true, bne_iff_ne, bne_iff_ne]
    exact ⟨hequals, hbracket⟩
  have hstart : t.head?.any Outline.isStart = true := by
    cases t with
    | nil => exact absurd rfl hne
    | cons c t =>
      obtain ⟨-, -, -, -, hstart⟩ := plain_of_isLetter (hletters c List.mem_cons_self)
      exact hstart
  have houtline : Outline.ofText? t.trimBlanks = some ⟨t.byteLength, none, none, none⟩ := by
    rw [Text.trimBlanks_letters hletters, Outline.ofText?]
    simp [htarget, hstart, Outline.withRest?]
  simp [ofText?, houtline, Outline.isBare, Threshold.ofText?_name h]

namespace Filter

/-- **The name of a threshold is a filter.** -/
theorem ofText?_name (h : (t.map Char.toLower, l) ∈ Threshold.named) :
    Filter.ofText? t = some (uniform l) := by
  obtain ⟨hne, hletters⟩ := Threshold.isLetter_of_mem_named h
  have hcomma : ',' ∉ t := fun hm => absurd (hletters ',' hm) (by decide)
  have hpieces : (pieces ',' t).filter (fun p => !p.isEmpty) = [t] := by
    rw [pieces_eq_splitOn, List.splitOn_eq_singleton hcomma]
    simp [hne]
  rw [ofText?, hpieces]
  simp [Directive.ofText?_name h, uniform]

/-- A directive that is meant for all events decides alone. -/
theorem admits_of_covers {d : Directive} (h : ∀ e, d.covers e = true) (e : Event) :
    (⟨[d]⟩ : Filter).admits e = d.threshold.admits e := by
  simp [admits, thresholdFor, directive?, h, prefer]

theorem admits_uniform (l : Threshold) (e : Event) : (uniform l).admits e = l.admits e := by
  rw [admits, thresholdFor_uniform]

end Filter

/-- **A setting that asks for a threshold shows what the threshold admits.** -/
theorem AsksFor.admits_ofSetting {setting : Option Text} (h : AsksFor setting l) (e : Event) :
    (Filter.ofSetting setting).admits e = l.admits e := by
  cases h with
  | unset => exact Filter.admits_uniform _ e
  | name h =>
    rw [Filter.ofSetting, Filter.ofText?_name h, Option.getD_some]
    exact Filter.admits_uniform l e
  | program =>
    let d : Directive := ⟨EventSource.root, none, none, .upTo .debug⟩
    have hread : Filter.ofText? "cmd_audit=debug" = some ⟨[d]⟩ := by decide +kernel
    have hcovers : ∀ e, d.covers e = true := by
      intro e
      simp [d, Directive.covers, List.isPrefixOf_iff_prefix.mpr e.source.root_prefix_path]
    rw [Filter.ofSetting, hread, Option.getD_some]
    exact Filter.admits_of_covers hcovers e
  | unreadable h =>
    rw [Filter.ofSetting, h, Option.getD_none]
    exact Filter.admits_uniform _ e

end CommandVetting
