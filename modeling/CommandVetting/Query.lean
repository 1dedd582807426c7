import CommandVetting.Decision
import CommandVetting.Platform
import CommandVetting.Isolation

/-!
# The engine

The engine answers queries and reports events while it does so. It keeps no state, so that a query
has one answer.

* `Query` and `Answer`;
* `Query.answer`: the answer to a query;
* `Query.events`: what is reported on the way: **an event for every command that is not empty, and
  one for a platform that is not known**.
-/

namespace CommandVetting

def versionNumber : Text := "1.1.0"

/-- How the engine works: it reads and judges. -/
inductive Mode where
  | audit
  deriving DecidableEq, Repr

def Mode.name : Mode → Text
  | audit => "Audit"

/-- What the engine can be asked. -/
inductive Query where
  | version
  | mode
  | audit (command : Text)
  | gate (command : Text)
  | baseline (platform : Text)
  | checklist (isolation : Text)
  | auditBaseline (platform : Text)
  deriving DecidableEq, Repr

/-- What the engine says. -/
inductive Answer where
  | text (t : Text)
  | mode (m : Mode)
  | verdict (v : Verdict)
  | decision (d : Decision)
  | tasks (ts : List Task)
  | verdicts (vs : List (Text × Verdict))
  deriving DecidableEq, Repr

/-- The event of a look-up of baseline commands: a platform without them is reported. -/
def baselineEvent? (platform : Text) : Option Event :=
  match Platform.ofKey? platform with
  | some _ => none
  | none => some
    { source := .catalog
      codeLine := 114
      level := .debug
      message := "No baseline registered for platform '" ++ platform ++ "'"
      fields := [] }

namespace Query

def answer : Query → Answer
  | version => .text versionNumber
  | mode => .mode .audit
  | audit c => .verdict (CommandVetting.audit c)
  | gate c => .decision (decisionOn c)
  | baseline p => .tasks (CommandVetting.baseline p)
  | checklist k => .text (CommandVetting.checklist k)
  | auditBaseline p =>
    .verdicts ((CommandVetting.baseline p).map fun t => (t.name, CommandVetting.audit t.command))

/-- The events that are reported while a query is answered, in order. -/
def events : Query → List Event
  | version | mode | checklist _ => []
  | audit c | gate c => (auditEvent? c).toList
  | baseline p => (baselineEvent? p).toList
  | auditBaseline p =>
    (baselineEvent? p).toList ++
      (CommandVetting.baseline p).filterMap fun t => auditEvent? t.command

end Query

end CommandVetting
