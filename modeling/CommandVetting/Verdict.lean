import CommandVetting.Rule.Basic

/-!
# Verdicts

* `Denial`: why a command is denied, as far as it is told;
* `Verdict`: allowed or denied, so that **an allowed command has no reason**.
-/

namespace CommandVetting

/-- The grounds of a denial. A denial by a rule names the category and the rule. -/
structure Denial where
  reason : Option Text
  category : Option Category
  rule : Option Text
  deriving DecidableEq, Repr

/-- The judgement on a command. -/
inductive Verdict where
  | allow
  | deny (grounds : Denial)
  deriving DecidableEq, Repr

namespace Verdict

/-- The command may be run as far as the rules go. -/
def isAllowed : Verdict → Bool
  | allow => true
  | deny _ => false

def grounds? : Verdict → Option Denial
  | allow => none
  | deny d => some d

end Verdict

end CommandVetting
