import CommandVetting.Proofs.Audit.Outcome
import CommandVetting.Proofs.Cli.Audit
import CommandVetting.Query

/-!
# The trail of an audit

An audit hands its verdicts to the caller and leaves a trail of events to whoever reviews the log. The two
are made side by side, and the trail shows each command without the padding around it.

* `Logged`: a verdict on a command and the events that log it; `Trail`: the same for several commands, one
  after the other;
* `Trail.eq_of_trail`, `Trail.countP_denied`, `Trail.replay_eq`: what a trail is determined by, counts and
  tells;
* `Event.verdict` and `replay`: the verdicts, read off the events;
* `trail`: the events that are reported while commands are audited; `logged_audit`: one command;
* **`events_mirror_verdicts`**: every list of commands.
-/

namespace CommandVetting

/-! ## Trails -/

/-- The event that reports a denial by a rule. -/
def blockedEvent (trimmed : Text) (category : Category) (rule : Text) : Event where
  source := .audit
  codeLine := 103
  level := .warn
  message := "Blocked command: " ++ trimmed
  fields := [⟨"rule", .quoted rule⟩, ⟨"category", .plain category.label⟩]

/-- The event that reports a command that is allowed. -/
def allowedEvent (trimmed : Text) : Event where
  source := .audit
  codeLine := 112
  level := .debug
  message := "Allowed command: " ++ trimmed
  fields := []

/-- A verdict on a command, and the events that log it: none for an empty command, one for any other. -/
inductive Logged (c : Text) : Verdict → List Event → Prop
  | empty (hc : c.trim = []) : Logged c emptyDenial []
  | blocked (hc : c.trim ≠ []) (category : Category) (rule : Text) :
      Logged c (.deny ⟨some forbiddenReason, some category, some rule⟩)
        [blockedEvent c.trim category rule]
  | allowed (hc : c.trim ≠ []) : Logged c .allow [allowedEvent c.trim]

/-- The events that a verdict on a command is logged by, if it is logged at all. -/
def Verdict.log (trimmed : Text) : Verdict → List Event
  | allow => [allowedEvent trimmed]
  | deny ⟨_, some category, some rule⟩ => [blockedEvent trimmed category rule]
  | deny _ => []

/-- Verdicts on several commands, and the events that log them one after the other. -/
inductive Trail : List Text → List Verdict → List Event → Prop
  | nil : Trail [] [] []
  | cons {c : Text} {v : Verdict} {es : List Event} {cs : List Text} {vs : List Verdict}
      {es' : List Event} (h : Logged c v es) (t : Trail cs vs es') :
      Trail (c :: cs) (v :: vs) (es ++ es')

/-! ## Reading a trail -/

/-- The category with a label. -/
def Category.ofLabel? (label : Text) : Option Category := all.find? fun c => c.label == label

theorem Category.ofLabel?_label (c : Category) : ofLabel? c.label = some c := by
  cases c <;> decide

namespace Event

/-- The value of a field. -/
def value? (e : Event) (name : Text) : Option Text :=
  (e.fields.find? fun f => f.name == name).map (·.value.text)

/-- A warning tells a denial by the rule and of the category it names, any other event that a command is
allowed. -/
def verdict (e : Event) : Verdict :=
  if e.level = .warn then
    .deny ⟨some forbiddenReason, (e.value? "category").bind Category.ofLabel?, e.value? "rule"⟩
  else .allow

theorem verdict_blockedEvent (t : Text) (category : Category) (rule : Text) :
    (blockedEvent t category rule).verdict =
      .deny ⟨some forbiddenReason, some category, some rule⟩ := by
  have hcategory : (blockedEvent t category rule).value? "category" = some category.label := rfl
  have hrule : (blockedEvent t category rule).value? "rule" = some rule := rfl
  have hlevel : (blockedEvent t category rule).level = .warn := rfl
  rw [verdict, if_pos hlevel, hcategory, hrule, Option.bind_some, Category.ofLabel?_label]

theorem verdict_allowedEvent (t : Text) : (allowedEvent t).verdict = .allow := rfl

end Event

/-- The verdicts that events tell, where it is known which commands are empty. -/
def replay : List Bool → List Event → List Verdict
  | [], _ => []
  | true :: empties, es => emptyDenial :: replay empties es
  | false :: empties, e :: es => e.verdict :: replay empties es
  | false :: _, [] => []

/-! ## What a trail tells -/

section

variable {c : Text} {v : Verdict} {cs : List Text} {vs : List Verdict} {es es' : List Event}

theorem Logged.eq_log (h : Logged c v es) : es = v.log c.trim := by
  cases h <;> rfl

theorem Logged.countP_denied (h : Logged c v es) :
    [v].countP (fun v => !v.isAllowed) =
      es.countP (fun e => e.level == .warn) + [c].countP fun c => c.trim.isEmpty := by
  cases h with
  | empty hc => simp [emptyDenial, Verdict.isAllowed, hc]
  | blocked hc => simp [blockedEvent, Verdict.isAllowed, hc]
  | allowed hc => simp [allowedEvent, Verdict.isAllowed, hc]

/-- The verdict of a command is told by the events that log it. -/
theorem Logged.replay_cons (h : Logged c v es) (empties : List Bool) (es' : List Event) :
    replay (c.trim.isEmpty :: empties) (es ++ es') = v :: replay empties es' := by
  cases h with
  | empty hc =>
    rw [hc]
    rfl
  | blocked hc category rule =>
    rw [List.isEmpty_eq_false_iff.mpr hc, ← Event.verdict_blockedEvent c.trim]
    rfl
  | allowed hc =>
    rw [List.isEmpty_eq_false_iff.mpr hc, ← Event.verdict_allowedEvent c.trim]
    rfl

/-- **The commands and their verdicts determine the trail.** -/
theorem Trail.eq_of_trail (h : Trail cs vs es) (h' : Trail cs vs es') : es' = es := by
  induction h generalizing es' with
  | nil =>
    cases h' with
    | nil => rfl
  | cons h _ ih =>
    cases h' with
    | cons h₁ t => rw [ih t, h₁.eq_log, h.eq_log]

/-- **The denials are the warnings and the empty commands.** -/
theorem Trail.countP_denied (h : Trail cs vs es) :
    vs.countP (fun v => !v.isAllowed) =
      es.countP (fun e => e.level == .warn) + cs.countP fun c => c.trim.isEmpty := by
  induction h with
  | nil => rfl
  | cons h t ih =>
    have hstep := h.countP_denied
    simp only [List.countP_cons, List.countP_nil, List.countP_append] at hstep ⊢
    omega

/-- **The trail tells the verdicts**, where it is known which commands are empty. -/
theorem Trail.replay_eq (h : Trail cs vs es) : replay (cs.map fun c => c.trim.isEmpty) es = vs := by
  induction h with
  | nil => rfl
  | cons h t ih => rw [List.map_cons, h.replay_cons, ih]

end

/-! ## The trail of an audit -/

/-- The events that are reported while commands are audited one after the other. -/
def trail (cs : List Text) : List Event := cs.flatMap fun c => (Query.audit c).events

/-- **The events of one audit log its verdict.** -/
theorem logged_audit (c : Text) : Logged c (audit c) (Query.audit c).events := by
  rw [audit, Query.events, auditEvent?]
  by_cases hc : c.trim = []
  · rw [inspect_of_trim_eq_nil hc]
    exact .empty hc
  · cases hf : Rule.first? c.trim with
    | some r =>
      rw [inspect_of_first?_eq_some hc hf]
      exact .blocked hc r.category r.name
    | none =>
      rw [inspect_of_first?_eq_none hc hf]
      exact .allowed hc

theorem trail_auditAll (cs : List Text) : Trail cs (auditAll cs) (trail cs) := by
  induction cs with
  | nil => exact .nil
  | cons c cs ih => exact .cons (logged_audit c) ih

/-- The run of an audit reports the trail, and how the audit ended. -/
theorem events_performAudit_eq_trail (json : Bool) (cs : List Text) :
    (performAudit json cs).emissions.filterMap Emission.event? =
      trail cs ++ [finishedEvent cs.length (deniedCount cs)] := by
  rw [events_performAudit, List.filterMap_eq_flatMap_toList]
  rfl

/-- **The events of an audit mirror its verdicts.** They are the trail of the verdicts and no others, in the
order of the commands; a run reports them before the event that ends it. There are as many denials as
warnings and empty commands together, and the events tell the verdicts once it is known which commands
are empty. -/
theorem events_mirror_verdicts (cs : List Text) :
    (∀ es, Trail cs (auditAll cs) es ↔ es = trail cs) ∧
    (∀ json, (performAudit json cs).emissions.filterMap Emission.event? =
      trail cs ++ [finishedEvent cs.length (deniedCount cs)]) ∧
    (auditAll cs).countP (fun v => !v.isAllowed) =
      (trail cs).countP (fun e => e.level == .warn) + cs.countP (fun c => c.trim.isEmpty) ∧
    replay (cs.map fun c => c.trim.isEmpty) (trail cs) = auditAll cs := by
  have h := trail_auditAll cs
  refine ⟨fun es => ⟨h.eq_of_trail, ?_⟩, fun json => events_performAudit_eq_trail json cs,
    h.countP_denied, h.replay_eq⟩
  rintro rfl
  exact h

end CommandVetting
