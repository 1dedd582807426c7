import CommandVetting.Cli.Parser
import CommandVetting.Cli.Perform
import CommandVetting.FileTree

/-!
# A run of the program

* `LogFailure`: the log cannot be opened, and its message;
* `FileTree.openLog`: creates the directory and the file of a log;
* `FileTree.filesIn`: the logs in a folder;
* `Surroundings` and `Outcome`: what a run finds and what it leaves;
* **`Request.outcome`**: a request in its surroundings.
-/

namespace CommandVetting

/-- Why a log cannot be opened. -/
inductive LogFailure where
  | folder (path : Text) (cause : OsError)
  | file (path : Text) (cause : OsError)
  deriving DecidableEq, Repr

/-- What is said when a log cannot be opened. -/
def LogFailure.message : LogFailure → Text
  | folder path cause =>
    "Error: Failed to create log directory " ++ path ++ "\n\nCaused by:\n    " ++ cause.message
  | file path cause =>
    "Error: Failed to create log file " ++ path ++ "\n\nCaused by:\n    " ++ cause.message

def programName : Text := "cmd-audit"

/-- The name of a log file, which holds the time when it was opened. -/
def logName (stamp : Text) : Text := programName ++ '.' :: stamp ++ ".log"

/-- The event at the start of a log file. -/
def openedEvent (path : Text) : Event where
  source := .log
  codeLine := 61
  level := .info
  message := "Logging initialized - writing to " ++ path
  fields := []

/-- An open log: its path as the user sees it, its place, and the files with the empty log. -/
structure LogFile where
  path : Text
  place : Place
  files : FileTree

/-- Creates the directory of a log and its file. A failure comes with the files as they were left. -/
def FileTree.openLog (f : FileTree) (dir stamp : Text) : Except (LogFailure × FileTree) LogFile :=
  let path := FilePath.join dir (logName stamp)
  match f.makeFolders dir with
  | .error (e, g) => .error (.folder dir e, g)
  | .ok g => match g.createFile path with
    | .error e => .error (.file path e, g)
    | .ok (place, h) => .ok ⟨path, place, h⟩

def LogFile.write (log : LogFile) (lines : List Text) : FileTree :=
  log.files.put log.place (.file lines)

/-- The logs in a folder, with their names and with their lines, which are told without the origins of
the events; none if there is no such folder. -/
def FileTree.filesIn (f : FileTree) (path : Text) : List (Text × List Text) :=
  let p := FilePath.ofText path
  match f.walk (f.origin p) p.names with
  | .error _ => []
  | .ok folder => f.entries.filterMap fun (place, node) => match node with
    | .folder | .closed => none
    | .file lines => match place.getLast? with
      | some n =>
        if place == folder ++ [n] then some (n, lines.map Event.withoutOrigin) else none
      | none => none

/-- What a run finds. -/
structure Surroundings where
  /-- The setting of the log filter. -/
  setting : Option Text
  /-- The time in the name of a log file. -/
  stamp : Text
  files : FileTree
  stdin : List UInt8

/-- What a run leaves. -/
structure Outcome where
  exit : Nat
  stdout : Text
  stderr : List Text
  files : FileTree

def versionText : Text := programName ++ ' ' :: versionNumber

/-- How the program is used. -/
def helpText : Text :=
  "Usage: cmd-audit [OPTIONS] <COMMAND>\n\n" ++
    "Commands:\n" ++
    "  baseline [PLATFORM]          list read-only baseline commands\n" ++
    "  audit <CANDIDATE>|--stdin    audit a command, or one command per line\n" ++
    "  harden <TYPE>                print a hardening checklist\n" ++
    "  rules                        list the rules in the order they are tried\n\n" ++
    "Options:\n" ++
    "  --json             print results as JSON\n" ++
    "  --log-dir <DIR>    write logs to a file in this directory\n" ++
    "  -h, --help         print help\n" ++
    "  -V, --version      print version"

/-- Runs an invocation. If its log cannot be opened, that is all that is said. -/
def Invocation.run (s : Surroundings) (i : Invocation) : Outcome :=
  let filter := Filter.ofSetting s.setting
  match i.logDir with
  | none =>
    let p := i.perform s.stdin
    ⟨p.exit, stdoutText p.emissions, stderrLines filter .stderr p.emissions, s.files⟩
  | some dir => match s.files.openLog dir s.stamp with
    | .error (e, files) => ⟨1, [], [e.message], files⟩
    | .ok log =>
      let p := i.perform s.stdin
      let emissions := .event (openedEvent log.path) :: p.emissions
      ⟨p.exit, stdoutText emissions, stderrLines filter .file emissions,
        log.write (logLines filter .file emissions)⟩

namespace Request

def outcome (s : Surroundings) : Request → Outcome
  | .perform i => i.run s
  | .version => ⟨0, versionText ++ ['\n'], [], s.files⟩
  | .help => ⟨0, helpText ++ ['\n'], [], s.files⟩

end Request

/-- Runs a command line. A line that makes no request ends with status 2 and a word about why. -/
def runArguments (s : Surroundings) (args : List Text) : Outcome :=
  match Request.ofArguments args with
  | .ok r => r.outcome s
  | .error e => ⟨2, [], ["error: " ++ e.message], s.files⟩

end CommandVetting
