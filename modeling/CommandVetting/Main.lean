import CommandVetting.Cli.Run
import Std.Time.Format

/-!
# The program

Reads the arguments, the environment and the standard input, and writes what the run puts out. All
decisions are made elsewhere.
-/

namespace CommandVetting.Program

/-- The environment variable that sets the filter of the log. -/
def settingVariable : String := "RUST_LOG"

/-- A text as a string. -/
def string (t : Text) : String := String.ofList t

partial def readAll (s : IO.FS.Stream) (done : ByteArray) : IO ByteArray := do
  let part ← s.read 65536
  if part.isEmpty then return done else readAll s (done ++ part)

/-- The standard input of the commands that read it. -/
def inputOf : Command → IO (List UInt8)
  | .audit .stdin => return (← readAll (← IO.getStdin) .empty).toList
  | _ => return []

/-- The operating system's number and text of an error. -/
def osError : IO.Error → OsError
  | .alreadyExists _ n t | .noFileOrDirectory _ n t | .invalidArgument _ n t
  | .permissionDenied _ n t | .resourceExhausted _ n t | .inappropriateType _ n t
  | .noSuchThing _ n t | .interrupted _ n t => ⟨n.toNat, t.toList⟩
  | .otherError n t | .resourceBusy n t | .resourceVanished n t | .unsupportedOperation n t
  | .hardwareFault n t | .unsatisfiedConstraints n t | .illegalOperation n t
  | .protocolError n t | .timeExpired n t => ⟨n.toNat, t.toList⟩
  | e => ⟨0, (toString e).toList⟩

/-- Creates a folder and the folders above it. -/
def makeFolders (path : String) : IO Unit := do
  try IO.FS.createDir path
  catch
    | .alreadyExists .. | .noFileOrDirectory .. => IO.FS.createDirAll path
    | e => throw e

/-- Opens a log in a directory. -/
def openLog (dir : Text) : IO (Except LogFailure (Text × IO.FS.Handle)) := do
  let stamp := (← Std.Time.PlainDateTime.now).format "uuuu-MM-dd-HH-mm-ss"
  let path := FilePath.join dir (logName stamp.toList)
  try makeFolders (string dir)
  catch e => return .error (.folder dir (osError e))
  try return .ok (path, ← IO.FS.Handle.mk (string path) .write)
  catch e => return .error (.file path (osError e))

/-- Writes an event with its time. The names of the levels end in one column. -/
def writeEvent (target : LogTarget) (write : String → IO Unit) (e : Event) : IO Unit := do
  let time := (← Std.Time.PlainDateTime.now).format "uuuu-MM-dd'T'HH:mm:ss.SSSSSS"
  let gap := List.replicate (6 - e.level.name.length) ' '
  write (time ++ string (gap ++ target.line e ++ ['\n']))

/-- Writes what a run puts out, in its order. -/
def write (filter : Filter) (target : LogTarget) (log : String → IO Unit) : Emission → IO Unit
  | .result t => do (← IO.getStdout).putStr (string (t ++ ['\n']))
  | .notice t => do (← IO.getStderr).putStr (string (t ++ ['\n']))
  | .event e => do if filter.admits e then writeEvent target log e

def perform (i : Invocation) (target : LogTarget) (log : String → IO Unit) (opened : List Emission) :
    IO UInt32 := do
  let filter := Filter.ofSetting ((← IO.getEnv settingVariable).map String.toList)
  let p := i.perform (← inputOf i.command)
  (opened ++ p.emissions).forM (write filter target log)
  (← IO.getStdout).flush
  return UInt32.ofNat p.exit

def run (i : Invocation) : IO UInt32 := do
  match i.logDir with
  | none => perform i .stderr (← IO.getStderr).putStr []
  | some dir => match ← openLog dir with
    | .ok (path, file) => perform i .file file.putStr [.event (openedEvent path)]
    | .error e =>
      (← IO.getStderr).putStrLn (string e.message)
      return 1

end CommandVetting.Program

open CommandVetting in
def main (args : List String) : IO UInt32 := do
  match Request.ofArguments (args.map String.toList) with
  | .ok (.perform i) => Program.run i
  | .ok .version =>
    IO.println (Program.string versionText)
    return 0
  | .ok .help =>
    IO.println (Program.string helpText)
    return 0
  | .error e =>
    (← IO.getStderr).putStrLn (Program.string ("error: " ++ e.message))
    return 2
