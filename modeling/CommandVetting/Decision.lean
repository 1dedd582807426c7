import CommandVetting.Finding

/-!
# The gate before execution

* `Decision`: to run a command or to refuse it with a reason;
* `Verdict.decision`: **a denied command is refused, whatever its grounds**, and the reason quotes
  it as given;
* `decisionOn`: the decision on a command that is audited first.
-/

namespace CommandVetting

/-- What happens to a command. -/
inductive Decision where
  | execute
  | refuse (reason : Text)
  deriving DecidableEq, Repr

/-- The command is run. -/
def Decision.isExecute : Decision → Bool
  | execute => true
  | refuse _ => false

/-- The reason for a denial that comes without one. -/
def unspecifiedReason : Text := "denied by audit"

/-- The reason for refusing a command, quoting it. -/
def refusal (command : Text) (grounds : Denial) : Text :=
  let reason := grounds.reason.getD unspecifiedReason
  match grounds.rule with
  | some rule => "Command '" ++ command ++ "' denied (" ++ rule ++ "): " ++ reason
  | none => "Command '" ++ command ++ "' denied: " ++ reason

def Verdict.decision (command : Text) : Verdict → Decision
  | allow => .execute
  | deny grounds => .refuse (refusal command grounds)

def decisionOn (command : Text) : Decision := (audit command).decision command

end CommandVetting
