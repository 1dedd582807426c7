import CommandVetting.Text.Basic

/-!
# Events

What the program reports about its own doings, beside its results.

* `Level`, in the order of **increasing verbosity**;
* `EventSource`: the parts of the program, with their paths;
* `Event`: a level, a message and named values, and the place in the program that reports it;
* `Event.line`: the event as a line, without its time;
* `Event.fileLine`: the event as a line of a log file, which tells **where it comes from**;
* `Event.withoutOrigin`: such a line without it.

A message may quote foreign text. The characters with which such a text could drive a terminal are
written as escapes; the line feed and the other characters stay.
-/

namespace CommandVetting

/-- The weight of an event. -/
inductive Level where
  | error
  | warn
  | info
  | debug
  | trace
  deriving DecidableEq, Repr

namespace Level

def name : Level → Text
  | error => "ERROR"
  | warn => "WARN"
  | info => "INFO"
  | debug => "DEBUG"
  | trace => "TRACE"

/-- How verbose a log has to be to show the level. -/
def verbosity : Level → Nat
  | error => 1
  | warn => 2
  | info => 3
  | debug => 4
  | trace => 5

end Level

/-- The value of a field. A quoted value stands between quotation marks in a line. -/
inductive FieldValue where
  | quoted (t : Text)
  | plain (t : Text)
  deriving DecidableEq, Repr

namespace FieldValue

/-- The value without quotation marks. -/
def text : FieldValue → Text
  | quoted t => t
  | plain t => t

/-- The value as it stands in a line. -/
def shown : FieldValue → Text
  | quoted t => '"' :: t ++ ['"']
  | plain t => t

end FieldValue

/-- A named value of an event. -/
structure Field where
  name : Text
  value : FieldValue
  deriving DecidableEq, Repr

/-- A part of the program that reports events. -/
inductive EventSource where
  /-- The run of a command line. -/
  | run
  | log
  | audit
  /-- The look-up of reference data. -/
  | catalog
  deriving DecidableEq, Repr

namespace EventSource

/-- The path of the whole program, with which the path of every part begins. -/
def root : Text := "cmd_audit"

/-- The path of a part, by which a filter names it. -/
def path : EventSource → Text
  | run => root
  | log => root ++ "::utils::logger"
  | audit => root ++ "::security::audit"
  | catalog => root ++ "::catalog::baseline"

theorem root_prefix_path (s : EventSource) : root <+: s.path := by
  cases s with
  | run => exact List.prefix_refl _
  | log | audit | catalog => exact List.prefix_append _ _

end EventSource

structure Event where
  source : EventSource
  /-- The line of the code of its source where it is reported. -/
  codeLine : Nat
  level : Level
  message : Text
  fields : List Field
  deriving DecidableEq, Repr

namespace Event

/-- The name under which the message counts as a field. -/
def messageName : Text := "message"

/-- The event has a value with the name; its message counts as one. -/
def hasField (e : Event) (name : Text) : Bool :=
  name == messageName || e.fields.any fun f => f.name == name

/-- A character of a message as it stands in a line. -/
def visible (c : Char) : Text :=
  if c == '\x1B' then "\\x1b"
  else if c == '\x07' then "\\x07"
  else if c == '\x08' then "\\x08"
  else if c == '\x0C' then "\\x0c"
  else if c == '\x7F' then "\\x7f"
  else if 0x80 ≤ c.toNat && c.toNat ≤ 0x9F then
    ("\\u\x7b" : Text) ++ Nat.toDigits 16 c.toNat ++ ("\x7d" : Text)
  else [c]

/-- What the event says: its message and its fields. -/
def body (e : Event) : Text :=
  e.message.flatMap visible ++ e.fields.flatMap fun f => ' ' :: f.name ++ '=' :: f.value.shown

/-- The event as a line, without its time. -/
def line (e : Event) : Text := e.level.name ++ ' ' :: e.body

/-- The thread that reports all events. -/
def thread : Text := "ThreadId(01)"

/-- Where the event comes from, in three words. -/
def origin (e : Event) : List Text :=
  [thread, e.source.path ++ [':'], Text.ofNat e.codeLine ++ [':']]

/-- The event as a line of a log file, without its time. -/
def fileLine (e : Event) : Text :=
  e.level.name ++ ' ' :: e.origin.flatMap (· ++ [' ']) ++ e.body

/-- A line of a log file without the origin of its event. -/
def withoutOrigin (t : Text) : Text :=
  t.takeWhile (· != ' ') ++ ' ' :: t.afterWord.afterWord.afterWord.afterWord

end Event

end CommandVetting
