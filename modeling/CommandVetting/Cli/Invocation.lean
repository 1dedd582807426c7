import CommandVetting.Text.Basic

/-!
# Invocations

What a user can ask of the program on its command line.

* `Command`: the four things that it does;
* `Invocation`: one of them, with what holds for all of them;
* `Request`: an invocation, or a word about the program itself.
-/

namespace CommandVetting

/-- Where the commands to be audited come from. -/
inductive Source where
  | argument (command : Text)
  /-- The lines of the standard input. -/
  | stdin
  deriving DecidableEq, Repr

/-- What the program does. -/
inductive Command where
  /-- Lists the baseline commands of a platform. -/
  | baseline (platform : Text)
  | audit (source : Source)
  /-- Prints a hardening checklist. -/
  | harden (isolation : Text)
  | rules
  deriving DecidableEq, Repr

/-- A command and what holds for every command. -/
structure Invocation where
  /-- Results are printed as JSON. -/
  json : Bool
  /-- The directory for a log file, which takes the place of the standard error. -/
  logDir : Option Text
  command : Command
  deriving DecidableEq, Repr

/-- What a user asks for. -/
inductive Request where
  | perform (invocation : Invocation)
  | version
  | help
  deriving DecidableEq, Repr

end CommandVetting
