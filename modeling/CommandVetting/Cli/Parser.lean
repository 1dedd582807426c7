import CommandVetting.Platform
import CommandVetting.Cli.Invocation
import CommandVetting.Cli.Token

/-!
# Reading a command line

The units are read from left to right, first those before the command and then those after it. An
option that holds for every command may stand on either side, once on each; **of two log
directories the later counts**. A request for help or for the version is answered where it stands.

* `Globals`: the options that hold for every command;
* `Operands`: what has been read after the command;
* **`Request.ofArguments`: the request that a command line makes, or what is wrong with it**.
-/

namespace CommandVetting

/-- The options that hold for every command. -/
structure Globals where
  json : Bool
  logDir : Option Text
  deriving DecidableEq, Repr

namespace Globals

def empty : Globals := ⟨false, none⟩

/-- The options before the command together with those after it. -/
def merge (outer inner : Globals) : Globals :=
  ⟨outer.json || inner.json, inner.logDir.or outer.logDir⟩

def addJson (g : Globals) : Except UsageError Globals :=
  if g.json then .error (.repeatedOption "--json") else .ok { g with json := true }

def addLogDir (g : Globals) (dir : Text) : Except UsageError Globals :=
  if g.logDir.isSome then .error (.repeatedOption ArgToken.logDirOption)
  else .ok { g with logDir := some dir }

end Globals

inductive CommandName where
  | baseline
  | audit
  | harden
  | rules
  deriving DecidableEq, Repr

namespace CommandName

def named : List (Text × CommandName) :=
  [("baseline", baseline), ("audit", audit), ("harden", harden), ("rules", rules)]

def ofWord? (word : Text) : Option CommandName := named.lookup word

def takesOperand : CommandName → Bool
  | rules => false
  | baseline | audit | harden => true

end CommandName

/-- What has been read after a command. -/
structure Operands where
  globals : Globals
  operand : Option Text
  stdin : Bool
  deriving DecidableEq, Repr

namespace Operands

def empty : Operands := ⟨.empty, none, false⟩

def command? (o : Operands) : CommandName → Except UsageError Command
  | .baseline => .ok (.baseline (o.operand.getD Platform.standard.key))
  | .audit => match o.operand, o.stdin with
    | some c, false => .ok (.audit (.argument c))
    | none, true => .ok (.audit .stdin)
    | some _, true => .error .conflictingSources
    | none, false => .error (.missingOperand "CANDIDATE")
  | .harden => match o.operand with
    | some k => .ok (.harden k)
    | none => .error (.missingOperand "TYPE")
  | .rules => .ok .rules

end Operands

namespace Request

/-- Reads the units after a command. -/
def readOperands (outer : Globals) (name : CommandName) (o : Operands) :
    List ArgToken → Except UsageError Request
  | [] => do
    let g := outer.merge o.globals
    return .perform ⟨g.json, g.logDir, ← o.command? name⟩
  | .json :: r => do readOperands outer name { o with globals := ← o.globals.addJson } r
  | .logDir d :: r => do readOperands outer name { o with globals := ← o.globals.addLogDir d } r
  | .stdin :: r =>
    if name != .audit then .error (.unknownOption "--stdin")
    else if o.stdin then .error (.repeatedOption "--stdin")
    else readOperands outer name { o with stdin := true } r
  | .help :: _ => .ok .help
  | .version :: _ => .error (.unknownOption "--version")
  | .endOfOptions :: r => readOperands outer name o r
  | .operand w :: r =>
    if name.takesOperand && o.operand.isNone then
      readOperands outer name { o with operand := some w } r
    else .error (.unexpectedOperand w)
  | .bad e :: _ => .error e

/-- Reads the units after the command `help`: at most the name of a command. -/
def readHelp : List ArgToken → Except UsageError Request
  | [] => .ok .help
  | [.operand w] =>
    if w == "help" || (CommandName.ofWord? w).isSome then .ok .help else .error (.unknownCommand w)
  | _ => .error (.unexpectedOperand "help")

/-- Reads the units up to the command and hands the others on. -/
def readGlobals (g : Globals) : List ArgToken → Except UsageError Request
  | [] => .error .missingCommand
  | .json :: r => do readGlobals (← g.addJson) r
  | .logDir d :: r => do readGlobals (← g.addLogDir d) r
  | .stdin :: _ => .error (.unknownOption "--stdin")
  | .help :: _ => .ok .help
  | .version :: _ => .ok .version
  | .endOfOptions :: _ => .error .missingCommand
  | .operand w :: r =>
    if w == "help" then readHelp r
    else match CommandName.ofWord? w with
      | some name => readOperands g name .empty r
      | none => .error (.unknownCommand w)
  | .bad e :: _ => .error e

/-- The request that a command line makes. -/
def ofArguments (args : List Text) : Except UsageError Request :=
  readGlobals .empty (ArgToken.scan args)

end Request

end CommandVetting
