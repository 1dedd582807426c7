import CommandVetting.Event.Filter

/-!
# What a run puts out

A run is described once, whatever becomes of its parts: results, notices and events in the order in
which they arise. Where the events go and which of them are shown is decided afterwards.

* `Emission`: a result, a notice or an event;
* `Performance`: all that a run puts out, and its exit status;
* `LogTarget.line`: each of the two places for events has **a layout of its own**;
* `stdoutText`, `stderrLines`, `logLines`: **an event goes to exactly one of the two, and a notice
  never to the log**.
-/

namespace CommandVetting

/-- One thing that a run puts out. -/
inductive Emission where
  | result (t : Text)
  /-- A line for the user. -/
  | notice (t : Text)
  | event (e : Event)
  deriving DecidableEq, Repr

/-- A run: what it puts out, and its exit status. -/
structure Performance where
  emissions : List Emission
  exit : Nat
  deriving DecidableEq, Repr

/-- The place where events are written. -/
inductive LogTarget where
  | stderr
  | file
  deriving DecidableEq, Repr

/-- The line in which an event is shown at the place. -/
def LogTarget.line : LogTarget → Event → Text
  | stderr => Event.line
  | file => Event.fileLine

namespace Emission

def event? : Emission → Option Event
  | event e => some e
  | result _ | notice _ => none

/-- The part on the standard output. -/
def onStdout : Emission → Text
  | result t => t ++ ['\n']
  | notice _ | event _ => []

/-- The line on the standard error. -/
def onStderr? (filter : Filter) (target : LogTarget) : Emission → Option Text
  | result _ => none
  | notice t => some t
  | event e => if target == .stderr && filter.admits e then some (target.line e) else none

/-- The line in the log file. -/
def inLog? (filter : Filter) (target : LogTarget) : Emission → Option Text
  | result _ | notice _ => none
  | event e => if target == .file && filter.admits e then some (target.line e) else none

end Emission

/-- The standard output of a run. -/
def stdoutText (es : List Emission) : Text := es.flatMap Emission.onStdout

/-- The lines on the standard error. -/
def stderrLines (filter : Filter) (target : LogTarget) (es : List Emission) : List Text :=
  es.filterMap (·.onStderr? filter target)

def logLines (filter : Filter) (target : LogTarget) (es : List Emission) : List Text :=
  es.filterMap (·.inLog? filter target)

end CommandVetting
