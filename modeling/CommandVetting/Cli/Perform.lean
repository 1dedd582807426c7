import CommandVetting.Cli.Emission
import CommandVetting.Cli.Invocation
import CommandVetting.Cli.Record
import CommandVetting.Text.Utf8

/-!
# Performing an invocation

What the four commands put out. Everything here is a function of the invocation and the bytes of
the standard input; the log settings have no part in it.

* `readyEvent`: reported once at the start;
* **`performAudit`: one record for every candidate, and exit status 0 only if all are allowed**;
* `Command.perform`: a command.
-/

namespace CommandVetting

/-- The event at the start of every run. -/
def readyEvent : Event where
  source := .run
  codeLine := 77
  level := .debug
  message := "Engine ready"
  fields := [⟨"version", .quoted versionNumber⟩, ⟨"mode", .plain Mode.audit.name⟩]

/-- The event at the end of an audit. -/
def finishedEvent (total denied : Nat) : Event where
  source := .run
  codeLine := 178
  level := .info
  message := "Audit finished"
  fields := [⟨"total", .plain (Text.ofNat total)⟩, ⟨"denied", .plain (Text.ofNat denied)⟩]

def exitStatus (vs : List Verdict) : Nat := if vs.all Verdict.isAllowed then 0 else 1

/-- Audits candidates: the events of all of them come first, then the records, then the summary. -/
def performAudit (json : Bool) (candidates : List Text) : Performance :=
  let findings := candidates.map inspect
  let verdicts := findings.map Finding.verdict
  let events := (candidates.zip findings).filterMap fun (c, f) => f.event? c.trim
  let records := (candidates.zip verdicts).map fun (c, v) => v.print json c
  let denied := (verdicts.filter fun v => !v.isAllowed).length
  { emissions := events.map .event ++ records.map .result ++
      [.event (finishedEvent candidates.length denied)]
    exit := exitStatus verdicts }

/-- What is said when the standard input is no text. -/
def decodingNotice : Text := "Error: stream did not contain valid UTF-8"

def noBaselineNotice (platform : Text) : Text :=
  "No baseline for platform '" ++ platform ++ "' (known: " ++
    Json.joined ", " (Platform.all.map Platform.key) ++ ")"

def performBaseline (json : Bool) (platform : Text) : List Emission :=
  if json then
    (baselineEvent? platform).toList.map .event ++
      [.result (baselineRecord (baseline platform)).pretty]
  else match Platform.ofKey? platform with
    | some p => p.tasks.map fun t => .result t.row
    | none => [.notice (noBaselineNotice platform)]

/-- Prints a checklist. -/
def performHarden (json : Bool) (isolation : Text) : List Emission :=
  [.result (if json then (hardenRecord isolation).compact else checklist isolation)]

def performRules (json : Bool) : List Emission :=
  if json then [.result (Json.arr (Rule.table.map Rule.record)).pretty]
  else Rule.table.map fun r => .result r.row

/-- Performs a command on the bytes of the standard input. -/
def Command.perform (json : Bool) (stdin : List UInt8) : Command → Performance
  | baseline p => ⟨performBaseline json p, 0⟩
  | audit (.argument c) => performAudit json [c]
  | audit .stdin => match Utf8.readLines? stdin with
    | some candidates => performAudit json candidates
    | none => ⟨[.notice decodingNotice], 1⟩
  | harden k => ⟨performHarden json k, 0⟩
  | rules => ⟨performRules json, 0⟩

/-- Performs an invocation once its log is open. -/
def Invocation.perform (i : Invocation) (stdin : List UInt8) : Performance :=
  let p := i.command.perform i.json stdin
  { p with emissions := .event readyEvent :: p.emissions }

end CommandVetting
