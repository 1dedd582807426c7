import CommandVetting.Rule.Table
import CommandVetting.Verdict
import CommandVetting.Event.Basic

/-!
# The audit of a command

A command is judged by its text alone, before it runs. It is read without the padding around it; an
empty one is denied, and so is one that a rule forbids.

* `Finding`: what the rules say about a command;
* **`inspect`: the first rule of the table that forbids the trimmed command**;
* `audit`: the verdict; `auditEvent?`: the event that goes with it;
* `auditAll`: several commands, each on its own.
-/

namespace CommandVetting

/-- The reason for denying an empty command. -/
def emptyReason : Text := "empty instruction"

/-- The reason for denying a command that a rule forbids, whatever the rule. -/
def forbiddenReason : Text :=
  "command looks destructive, removes traces, disables security controls or establishes " ++
    "persistence; blocked by audit rules"

/-- What the rules say about a command. -/
inductive Finding where
  /-- There is nothing to judge. -/
  | empty
  /-- The rule is the first that forbids the command. -/
  | forbidden (rule : Rule)
  /-- No rule forbids the command. -/
  | clean

/-- Looks for the first rule that forbids the trimmed command. -/
def inspect (command : Text) : Finding :=
  if command.trim.isEmpty then .empty
  else match Rule.table.find? (·.forbids command.trim) with
    | some r => .forbidden r
    | none => .clean

def Finding.verdict : Finding → Verdict
  | empty => .deny ⟨some emptyReason, none, none⟩
  | forbidden r => .deny ⟨some forbiddenReason, some r.category, some r.name⟩
  | clean => .allow

/-- The event that reports a finding about a trimmed command. -/
def Finding.event? (trimmed : Text) : Finding → Option Event
  | empty => none
  | forbidden r => some
    { source := .audit
      codeLine := 103
      level := .warn
      message := "Blocked command: " ++ trimmed
      fields := [⟨"rule", .quoted r.name⟩, ⟨"category", .plain r.category.label⟩] }
  | clean => some
    { source := .audit
      codeLine := 112
      level := .debug
      message := "Allowed command: " ++ trimmed
      fields := [] }

def audit (command : Text) : Verdict := (inspect command).verdict

def auditEvent? (command : Text) : Option Event := (inspect command).event? command.trim

/-- The verdicts on several commands, in their order. -/
def auditAll (commands : List Text) : List Verdict := commands.map audit

end CommandVetting
