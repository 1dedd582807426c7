import CommandVetting.Query
import CommandVetting.Json.Basic
import CommandVetting.Rule.Table

/-!
# Results in print

* `Verdict.row` and `Verdict.record`: the judgement on a command, as text and as JSON; **both quote
  the command as it was given**;
* `Task.row` and `baselineRecord`: baseline commands;
* `Rule.row` and `Rule.record`: the rules;
* `hardenRecord`: a checklist.
-/

namespace CommandVetting

/-- A member of a record that is left out when it has no value. -/
def optionalMember (name : Text) : Option Text → List (Text × Json)
  | none => []
  | some t => [(name, .str t)]

namespace Verdict

def members : Verdict → List (Text × Json)
  | allow => [("allowed", .bool true)]
  | deny d => ("allowed", .bool false) :: (optionalMember "reason" d.reason ++
      optionalMember "category" (d.category.map Category.key) ++ optionalMember "rule" d.rule)

def row (command : Text) : Verdict → Text
  | allow => "ALLOW  " ++ command
  | deny d =>
    let rule : Text := match d.rule with
      | some r => " [" ++ r ++ "]"
      | none => []
    "DENY   " ++ command ++ rule ++ " - " ++ d.reason.getD []

def record (command : Text) (v : Verdict) : Json :=
  .obj (("candidate", .str command) :: v.members)

def print (json : Bool) (command : Text) (v : Verdict) : Text :=
  if json then (v.record command).compact else v.row command

end Verdict

def Task.row (t : Task) : Text := t.name.padRight 18 ++ ' ' :: t.command

def baselineRecord (ts : List Task) : Json := .obj (ts.map fun t => (t.name, .str t.command))

/-- A checklist as a record, with the key that was asked for. -/
def hardenRecord (key : Text) : Json :=
  .obj [("checklist", .str (checklist key)), ("resolved", .str (Isolation.ofKey key).name),
    ("type", .str key)]

namespace Rule

def row (r : Rule) : Text :=
  r.category.label.padRight 36 ++ ' ' :: r.name.padRight 20 ++ ' ' :: r.text

def record (r : Rule) : Json :=
  .obj [("category", .str r.category.key), ("name", .str r.name), ("pattern", .str r.text)]

end Rule

end CommandVetting
