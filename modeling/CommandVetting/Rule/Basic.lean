import CommandVetting.Pattern.Parser
import CommandVetting.Pattern.Boundary
import CommandVetting.Pattern.Search

/-!
# Rules

A rule forbids the commands in which its pattern occurs.

* `Category`: the kind of abuse that a rule stands for;
* `Rule`: a named pattern text together with its tree; **`parses` says that the text is well
  formed**, so that a table of rules cannot fail to load;
* `Rule.forbids`: the pattern occurs in a command.
-/

namespace CommandVetting

/-- A kind of abuse. -/
inductive Category where
  /-- Loss of data or of the running system. -/
  | destructive
  /-- Cleared logs and suppressed histories. -/
  | logTampering
  /-- Protection turned off. -/
  | securityControlDisablement
  /-- A way back in that outlives the session. -/
  | persistence
  | offensiveTooling
  deriving DecidableEq, Repr

namespace Category

/-- The name of the category in records. -/
def key : Category → Text
  | destructive => "destructive"
  | logTampering => "log_tampering"
  | securityControlDisablement => "security_control_disablement"
  | persistence => "persistence"
  | offensiveTooling => "offensive_tooling"

/-- The name of the category in listings and logs. -/
def label : Category → Text
  | destructive => "destructive/stability-impacting"
  | logTampering => "log/trace tampering"
  | securityControlDisablement => "security control disablement"
  | persistence => "persistence/backdoor creation"
  | offensiveTooling => "offensive tooling/credential theft"

def all : List Category :=
  [destructive, logTampering, securityControlDisablement, persistence, offensiveTooling]

def ofKey? (key : Text) : Option Category := all.find? fun c => c.key == key

theorem ofKey?_key (c : Category) : ofKey? c.key = some c := by cases c <;> decide

end Category

/-- A rule: a pattern of forbidden commands. -/
structure Rule where
  category : Category
  name : Text
  /-- The pattern text, with ASCII word boundaries. -/
  text : Text
  pattern : Pattern
  /-- The tree is the reading of the text. -/
  parses : Pattern.parse? text = some pattern

namespace Rule

/-- The rule with a pattern text in which `\b` stands for the end of an ASCII word. -/
def ofSource (category : Category) (name source : String)
    (h : (Pattern.parse? (asciiBoundaries source)).isSome = true) : Rule where
  category := category
  name := name
  text := asciiBoundaries source
  pattern := (Pattern.parse? (asciiBoundaries source)).get h
  parses := (Option.some_get h).symm

/-- The rule's pattern occurs in a command. -/
def forbids (r : Rule) (command : Text) : Bool := r.pattern.search command

end Rule

end CommandVetting
