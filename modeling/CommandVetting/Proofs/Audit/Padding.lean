import CommandVetting.Proofs.Cli.Wording
import CommandVetting.Query

/-!
# The padding around a command

Padding around a command has no part in its judgement. The audit and its events are about what remains
without it, and only a refusal shows the command with its padding, since it quotes what was given.

* `auditEvent?_congr`, `events_congr`: what is reported of a command;
* `decisionOn_cases_of_audit_eq`: **commands with the same verdict are run or refused together**, and their
  refusals have the same words around the quotation;
* **`audit_padded`**: a command in any padding.
-/

namespace CommandVetting

variable {c d p q s t : Text}

/-- What is reported shows the trimmed command only. -/
theorem auditEvent?_congr (h : s.trim = t.trim) : auditEvent? s = auditEvent? t := by
  rw [auditEvent?, auditEvent?, inspect_congr h, h]

theorem events_congr (h : s.trim = t.trim) : (Query.audit s).events = (Query.audit t).events ∧
    (Query.gate s).events = (Query.gate t).events := by
  have hevents := congrArg Option.toList (auditEvent?_congr h)
  exact ⟨hevents, hevents⟩

/-- **Commands with the same verdict are run or refused together.** -/
theorem decisionOn_cases_of_audit_eq (h : audit c = audit d) :
    (decisionOn c = .execute ∧ decisionOn d = .execute) ∨
      ∃ tail, ("' denied" : Text) <+: tail ∧
        decisionOn c = .refuse (("Command '" : Text) ++ c ++ tail) ∧
        decisionOn d = .refuse (("Command '" : Text) ++ d ++ tail) := by
  rw [decisionOn, decisionOn, h]
  cases audit d with
  | allow => exact .inl ⟨rfl, rfl⟩
  | deny g =>
    obtain ⟨tail, hdenied, heq⟩ := exists_refusal_eq g
    exact .inr ⟨tail, hdenied, congrArg Decision.refuse (heq c), congrArg Decision.refuse (heq d)⟩

/-- **Padding makes no difference.** A command that stands between white space and byte order marks, in any
mixture, gets the verdict that it gets without them and is reported by the same events. It is run if the
command is run, and refused in the same words if the command is refused, except that the refusal quotes it
with its padding. In particular, the command without any padding gets the same verdict. -/
theorem audit_padded (hp : ∀ c ∈ p, c.toNat ∈ paddingCodes) (hq : ∀ c ∈ q, c.toNat ∈ paddingCodes)
    (s : Text) :
    audit (p ++ s ++ q) = audit s ∧
    (Query.audit (p ++ s ++ q)).events = (Query.audit s).events ∧
    (Query.gate (p ++ s ++ q)).events = (Query.gate s).events ∧
    ((decisionOn (p ++ s ++ q) = .execute ∧ decisionOn s = .execute) ∨
      ∃ tail, ("' denied" : Text) <+: tail ∧
        decisionOn (p ++ s ++ q) = .refuse (("Command '" : Text) ++ (p ++ s ++ q) ++ tail) ∧
        decisionOn s = .refuse (("Command '" : Text) ++ s ++ tail)) ∧
    audit s.trim = audit s := by
  have hpad : (p ++ s ++ q).trim = s.trim :=
    Text.trim_padding (fun c hc => isPadding_iff.mpr (hp c hc)) fun c hc => isPadding_iff.mpr (hq c hc)
  obtain ⟨haudit, hgate⟩ := events_congr hpad
  have hverdict := audit_congr hpad
  exact ⟨hverdict, haudit, hgate, decisionOn_cases_of_audit_eq hverdict,
    audit_congr (Text.trim_trim s)⟩

/-- A forbidden command that has some padding already, between byte order marks and other white space. -/
theorem audit_padded_rmRfRoot :
    let p : Text := "\uFEFF\t\uFEFF"
    let q : Text := "\u0085 \uFEFF"
    let s : Text := "\u3000rm -rf /\uFEFF"
    audit (p ++ s ++ q) = Rule.rmRfRoot.denial ∧ (Query.gate (p ++ s ++ q)).events = (Query.gate s).events ∧
      ∃ tail, decisionOn (p ++ s ++ q) = .refuse (("Command '" : Text) ++ (p ++ s ++ q) ++ tail) ∧
        decisionOn s = .refuse (("Command '" : Text) ++ s ++ tail) := by
  intro p q s
  have hpadding : ∀ t : Text, t.all (fun c => decide (c.toNat ∈ paddingCodes)) = true →
      ∀ c ∈ t, c.toNat ∈ paddingCodes :=
    fun t ht c hc => of_decide_eq_true (List.all_eq_true.mp ht c hc)
  obtain ⟨haudit, -, hgate, hdecision, -⟩ :=
    audit_padded (hpadding p (by decide +kernel)) (hpadding q (by decide +kernel)) s
  have hdenial : audit s = Rule.rmRfRoot.denial := by decide +kernel
  refine ⟨haudit.trans hdenial, hgate, ?_⟩
  obtain ⟨-, hexecute⟩ | ⟨tail, -, hrefuse⟩ := hdecision
  · rw [decisionOn_eq_execute_iff, hdenial] at hexecute
    cases hexecute
  · exact ⟨tail, hrefuse⟩

end CommandVetting
