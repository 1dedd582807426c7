import CommandVetting.Text.Basic

/-!
# The units of a command line

An argument is an option, an operand, or an option whose value is the next argument. What an
argument is does not depend on the command it belongs to; whether it is welcome there does.

* `UsageError`: what can be wrong with a command line;
* `ArgToken`: an option together with its value, or an operand;
* **`ArgToken.scan`: the units of a command line**; everything after `--` is an operand.
-/

namespace CommandVetting

/-- What is wrong with a command line. -/
inductive UsageError where
  | unknownOption (option : Text)
  | unexpectedValue (option : Text)
  | missingValue (option : Text)
  | repeatedOption (option : Text)
  | missingCommand
  | unknownCommand (word : Text)
  | missingOperand (name : Text)
  | unexpectedOperand (word : Text)
  | conflictingSources
  deriving DecidableEq, Repr

namespace UsageError

def message : UsageError → Text
  | unknownOption o => "unknown option '" ++ o ++ "'"
  | unexpectedValue o => "option '" ++ o ++ "' takes no value"
  | missingValue o => "option '" ++ o ++ "' needs a value"
  | repeatedOption o => "option '" ++ o ++ "' is given twice"
  | missingCommand => "a command is needed"
  | unknownCommand w => "unknown command '" ++ w ++ "'"
  | missingOperand n => "argument <" ++ n ++ "> is needed"
  | unexpectedOperand w => "unexpected argument '" ++ w ++ "'"
  | conflictingSources => "a candidate cannot be given together with '--stdin'"

end UsageError

/-- A unit of a command line. -/
inductive ArgToken where
  | json
  | logDir (dir : Text)
  | stdin
  | help
  | version
  | endOfOptions
  | operand (word : Text)
  /-- Nothing that can stand on a command line. -/
  | bad (e : UsageError)
  deriving DecidableEq, Repr

namespace ArgToken

/-- The name of the option for a log directory. -/
def logDirOption : Text := "--log-dir"

/-- An argument that is not an option: it does not start with a hyphen or is no more than one. -/
def isOperand : Text → Bool
  | '-' :: _ :: _ => false
  | _ => true

/-- The name of a long option, and what follows its first equality sign. -/
def splitValue (a : Text) : Text × Option Text :=
  (a.takeWhile (· != '='), (a.dropWhile (· != '=')).tail?)

/-- A log directory, which has to have a name. -/
def ofDir (dir : Text) : ArgToken :=
  if dir.isEmpty then bad (.missingValue logDirOption) else logDir dir

/-- An option that takes no value. -/
def flag (token : ArgToken) (name : Text) : Option Text → ArgToken
  | none => token
  | some _ => bad (.unexpectedValue name)

def ofLong (a : Text) : ArgToken :=
  let (name, value?) := splitValue a
  if name == "--json" then flag json name value?
  else if name == "--stdin" then flag stdin name value?
  else if name == "--help" then flag help name value?
  else if name == "--version" then flag version name value?
  else if name == logDirOption then value?.elim (bad (.missingValue name)) ofDir
  else bad (.unknownOption a)

/-- An argument that needs no other. Of short options that are run together, the first counts. -/
def ofArgument : Text → ArgToken
  | '-' :: '-' :: name => ofLong ('-' :: '-' :: name)
  | '-' :: 'h' :: _ => help
  | '-' :: 'V' :: _ => version
  | '-' :: c :: r => bad (.unknownOption ('-' :: c :: r))
  | word => operand word

/-- The units of a command line. A missing value ends them. -/
def scan : List Text → List ArgToken
  | [] => []
  | a :: r =>
    if a == "--" then endOfOptions :: r.map operand
    else if a == logDirOption then match r with
      | [] => [bad (.missingValue a)]
      | v :: s => if isOperand v then ofDir v :: scan s else [bad (.missingValue a)]
    else ofArgument a :: scan r

end ArgToken

end CommandVetting
