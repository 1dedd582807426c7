import Mathlib.Data.List.Find
import CommandVetting.Proofs.Rule.Order
import CommandVetting.Proofs.Rule.Shape
import CommandVetting.Proofs.Text.Trim
import CommandVetting.Decision

/-!
# The outcome of an audit

A command is empty, forbidden by a first rule, or allowed, and the verdict tells which.

* `emptyDenial`, `Rule.denial`: the two kinds of denial;
* `audit_cases`: the three outcomes; `audit_eq_emptyDenial_iff`, `audit_eq_denial_iff`,
  `audit_eq_allow_iff`: what each verdict tells;
* `audit_eq_of_forbids_eq`: what the verdict depends on;
* `exists_denial_of_forbids`: a rule that forbids the trimmed command leads to a denial, by this rule
  or one before it;
* **`exists_core_audit_iff`**: the verdict and the decision on every command, told by what the pattern
  texts describe.
-/

namespace CommandVetting

/-! ## The three outcomes -/

/-- The verdict that reports a rule. -/
def Rule.denial (r : Rule) : Verdict := .deny ⟨some forbiddenReason, some r.category, some r.name⟩

/-- The verdict on a command that is nothing but padding. -/
def emptyDenial : Verdict := .deny ⟨some emptyReason, none, none⟩

theorem inspect_of_trim_eq_nil {s : Text} (h : s.trim = []) : inspect s = .empty := by
  rw [inspect, h]
  rfl

theorem inspect_of_first?_eq_some {s : Text} {r : Rule} (ht : s.trim ≠ [])
    (hf : Rule.first? s.trim = some r) : inspect s = .forbidden r := by
  rw [Rule.first?] at hf
  rw [inspect, if_neg (by rwa [List.isEmpty_iff]), hf]

theorem inspect_of_first?_eq_none {s : Text} (ht : s.trim ≠ [])
    (hf : Rule.first? s.trim = none) : inspect s = .clean := by
  rw [Rule.first?] at hf
  rw [inspect, if_neg (by rwa [List.isEmpty_iff]), hf]

/-- The rules look at the trimmed command only. -/
theorem inspect_congr {s t : Text} (h : s.trim = t.trim) : inspect s = inspect t := by
  rw [inspect, inspect, h]

theorem audit_congr {s t : Text} (h : s.trim = t.trim) : audit s = audit t :=
  congrArg Finding.verdict (inspect_congr h)

/-- **Every command is empty, forbidden by a first rule, or allowed.** -/
theorem audit_cases (s : Text) : (s.trim = [] ∧ audit s = emptyDenial) ∨
    (s.trim ≠ [] ∧ ∃ r, Rule.first? s.trim = some r ∧ audit s = r.denial) ∨
    (s.trim ≠ [] ∧ Rule.first? s.trim = none ∧ audit s = .allow) := by
  by_cases ht : s.trim = []
  · refine .inl ⟨ht, ?_⟩
    rw [audit, inspect_of_trim_eq_nil ht]
    rfl
  · cases hf : Rule.first? s.trim with
    | none =>
      refine .inr (.inr ⟨ht, rfl, ?_⟩)
      rw [audit, inspect_of_first?_eq_none ht hf]
      rfl
    | some r =>
      refine .inr (.inl ⟨ht, r, rfl, ?_⟩)
      rw [audit, inspect_of_first?_eq_some ht hf]
      rfl

theorem audit_eq_emptyDenial_iff {s : Text} : audit s = emptyDenial ↔ s.trim = [] := by
  rcases audit_cases s with ⟨ht, ha⟩ | ⟨ht, r, -, ha⟩ | ⟨ht, -, ha⟩
  · exact iff_of_true ha ht
  · exact iff_of_false (by rw [ha]; simp [emptyDenial, Rule.denial]) ht
  · exact iff_of_false (by rw [ha]; simp [emptyDenial]) ht

/-- **A denial names the first rule that forbids the trimmed command.** -/
theorem audit_eq_denial_iff {s : Text} {r : Rule} (hr : r ∈ Rule.table) :
    audit s = r.denial ↔ s.trim ≠ [] ∧ Rule.first? s.trim = some r := by
  rcases audit_cases s with ⟨ht, ha⟩ | ⟨ht, r', hf, ha⟩ | ⟨ht, hf, ha⟩
  · exact iff_of_false (by rw [ha]; simp [emptyDenial, Rule.denial]) fun h => h.1 ht
  · rw [ha, hf]
    constructor
    · intro h
      have hn : r'.name = r.name := by
        simp only [Rule.denial, Verdict.deny.injEq, Denial.mk.injEq, Option.some.injEq] at h
        exact h.2.2
      exact ⟨ht, congrArg some (Rule.eq_of_name_eq (Rule.mem_of_first? hf) hr hn)⟩
    · rintro ⟨-, h⟩
      rw [Option.some.inj h]
  · exact iff_of_false (by rw [ha]; simp [Rule.denial]) fun h => by rw [hf] at h; cases h.2

theorem audit_eq_allow_iff {s : Text} :
    audit s = .allow ↔ s.trim ≠ [] ∧ Rule.first? s.trim = none := by
  rcases audit_cases s with ⟨ht, ha⟩ | ⟨ht, r, hf, ha⟩ | ⟨ht, hf, ha⟩
  · exact iff_of_false (by rw [ha]; simp [emptyDenial]) fun h => h.1 ht
  · exact iff_of_false (by rw [ha]; simp [Rule.denial]) fun h => by rw [hf] at h; cases h.2
  · exact iff_of_true ha ⟨ht, hf⟩

theorem decisionOn_eq_execute_iff {s : Text} : decisionOn s = .execute ↔ audit s = .allow := by
  rw [decisionOn]
  cases audit s with
  | allow => exact iff_of_true rfl rfl
  | deny d => exact iff_of_false (by simp [Verdict.decision]) (by simp)

/-- **Commands that the same rules forbid get the same verdict**, unless only one of them is empty. -/
theorem audit_eq_of_forbids_eq {s t : Text} (hempty : s.trim = [] ↔ t.trim = [])
    (h : ∀ r ∈ Rule.table, r.forbids s.trim = r.forbids t.trim) : audit s = audit t := by
  have hfirst : Rule.first? s.trim = Rule.first? t.trim := by
    rw [Rule.first?, Rule.first?]
    exact List.find?_congr h
  rcases audit_cases s with ⟨hs, ha⟩ | ⟨hs, r, hf, ha⟩ | ⟨hs, hf, ha⟩
  · rw [ha, audit_eq_emptyDenial_iff.mpr (hempty.mp hs)]
  · rw [ha, (audit_eq_denial_iff (Rule.mem_of_first? hf)).mpr ⟨mt hempty.mpr hs, hfirst ▸ hf⟩]
  · rw [ha, audit_eq_allow_iff.mpr ⟨mt hempty.mpr hs, hfirst ▸ hf⟩]

/-- **A rule that forbids the trimmed command leads to a denial**, by this rule or one before it. -/
theorem exists_denial_of_forbids {s : Text} {r : Rule} (hr : r ∈ Rule.table)
    (h : r.forbids s.trim = true) : ∃ r' : Rule, r'.AtOrBefore r ∧ audit s = r'.denial := by
  obtain ⟨r', hf, hb⟩ := Rule.exists_first?_of_forbids hr h
  refine ⟨r', hb, (audit_eq_denial_iff (Rule.mem_of_first? hf)).mpr ⟨?_, hf⟩⟩
  intro ht
  rw [ht, Rule.forbids_nil hr] at h
  cases h

/-! ## The verdict by the pattern texts -/

/-- **The verdict on every command.** Of what remains without the padding around it, the command is
denied as empty if nothing remains, denied by the rule of least place whose pattern text describes
it, and allowed and run if no pattern text describes it. -/
theorem exists_core_audit_iff (s : Text) : ∃ t, (∀ t', s.Trims t' ↔ t' = t) ∧
    (audit s = .deny ⟨some emptyReason, none, none⟩ ↔ t = []) ∧
    (∀ (i : Nat) (r : Rule), Rule.table[i]? = some r →
      (audit s = .deny ⟨some forbiddenReason, some r.category, some r.name⟩ ↔
        t ≠ [] ∧ r.Describes t ∧
          ∀ (j : Nat) (r' : Rule), j < i → Rule.table[j]? = some r' → ¬ r'.Describes t)) ∧
    (audit s = .allow ↔ t ≠ [] ∧ ∀ r ∈ Rule.table, ¬ r.Describes t) ∧
    (decisionOn s = .execute ↔ t ≠ [] ∧ ∀ r ∈ Rule.table, ¬ r.Describes t) := by
  have hallow : audit s = .allow ↔ s.trim ≠ [] ∧ ∀ r ∈ Rule.table, ¬ r.Describes s.trim := by
    rw [audit_eq_allow_iff, Rule.first?_eq_none_iff]
  refine ⟨s.trim, fun _ => Text.trims_iff, audit_eq_emptyDenial_iff, fun i r hi => ?_, hallow, ?_⟩
  · change audit s = r.denial ↔ _
    rw [audit_eq_denial_iff (List.mem_of_getElem? hi), Rule.first?_eq_some_iff]
    refine and_congr_right fun _ => ⟨?_, fun ⟨hd, hmin⟩ => ⟨i, hi, hd, hmin⟩⟩
    rintro ⟨i', hi', hd, hmin⟩
    obtain rfl : i' = i := Rule.index_unique hi' hi
    exact ⟨hd, hmin⟩
  · rw [decisionOn_eq_execute_iff, hallow]

/-- Two rules forbid the command, and the one that stands first is reported. -/
theorem exists_core_audit_iff_shutdown :
    ∃ t, Text.Trims "  schtasks /create /tr \"shutdown /s\"\uFEFF" t ∧ Rule.shutdown.Describes t ∧
      ∀ (j : Nat) (r' : Rule), j < 6 → Rule.table[j]? = some r' → ¬ r'.Describes t := by
  obtain ⟨t, ht, -, hdeny, -⟩ := exists_core_audit_iff "  schtasks /create /tr \"shutdown /s\"\uFEFF"
  obtain ⟨-, hd, hmin⟩ := (hdeny 6 Rule.shutdown rfl).mp (by decide +kernel)
  exact ⟨t, (ht t).mpr rfl, hd, hmin⟩

end CommandVetting
