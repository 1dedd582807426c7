import CommandVetting.Event.Threshold
import CommandVetting.Expression.Nesting
import CommandVetting.Text.Alphanumeric
import CommandVetting.Text.Blank
import CommandVetting.Text.Lines
import CommandVetting.Text.Number

/-!
# Directives

A directive sets a threshold for some of the events. It is a threshold alone, or it has parts that
say which events are meant, each of which may be missing: the start of the path of their source,
then in square brackets a span and in braces a field, and after an equals sign the threshold. A
directive that gives no threshold shows all events it is meant for.

* `Directive`, and `covers`: **which events a directive is meant for**;
* `Directive.yieldsTo`: the order of directives by how specific they are;
* `Directive.Outline`: the places of the parts in the text of a directive;
* **`Directive.ofText?`: reads a directive**.
-/

namespace CommandVetting

/-- A field that an event must have, and perhaps a value that a field of a span must have. -/
structure FieldDemand where
  name : Text
  value : Option Text
  deriving DecidableEq, Repr

/-- A value is asked for by a number or by an expression that it matches. -/
def FieldDemand.isValue (t : Text) : Bool := t.isNumber || Expression.isReadable t

/-- The demand that is written as a name, or as a name and a value with an equals sign between
them. -/
def FieldDemand.ofText? (t : Text) : Option FieldDemand :=
  let parts := pieces '=' t
  if parts[1]?.all isValue then some ⟨parts.headD [], parts[1]?⟩ else none

/-- A threshold for some of the events. -/
structure Directive where
  /-- The start of the path of the source. -/
  target : Text
  /-- The span inside which the event is reported. -/
  span : Option Text
  field : Option FieldDemand
  threshold : Threshold
  deriving DecidableEq, Repr

namespace Directive

/-- The directive for all events. -/
def everywhere (t : Threshold) : Directive := ⟨[], none, none, t⟩

/-- The directive is meant for the event. No event is reported inside a span, and the value of a
field is a matter of spans too. -/
def covers (d : Directive) (e : Event) : Bool :=
  d.span.isNone && d.target.isPrefixOf e.source.path &&
    d.field.all fun f => f.value.isNone && e.hasField f.name

/-- The name of the field that the directive asks for, or nothing. -/
def fieldName (d : Directive) : Text := (d.field.map FieldDemand.name).getD []

/-- The other directive is at least as specific: its target is longer, or it is as long and the
name of its field does not come earlier. -/
def yieldsTo (d other : Directive) : Bool :=
  d.target.length < other.target.length ||
    (d.target.length == other.target.length && !other.fieldName.comesBefore d.fieldName)

theorem everywhere_covers (t : Threshold) (e : Event) : (everywhere t).covers e = true := by
  simp [everywhere, covers]

/-! ## Reading -/

/-- The places of the parts in the text of a directive, counted in bytes. -/
structure Outline where
  /-- The target ends here. -/
  target : Nat
  span : Option (Nat × Nat)
  field : Option (Nat × Nat)
  /-- The threshold starts here. -/
  threshold : Option Nat
  deriving DecidableEq, Repr

namespace Outline

def isStart (c : Char) : Bool :=
  c == '[' || c == '-' || c == ':' || c == '_' || isAlphanumeric c

/-- The outline with the place of a threshold, if one follows the parts in brackets. Nothing else
may follow them. -/
def withRest? (o : Outline) (place : Nat) : Text → Option Outline
  | [] => some o
  | '=' :: _ => some { o with threshold := some (place + 1) }
  | _ => none

/-- A part in brackets has been opened: reads on to the end of its span. -/
def withSpan? (target : Nat) (rest : Text) : Option Outline :=
  let span := rest.takeWhile fun c => c != ']' && c != '\x7b'
  let first := target + 1
  let last := first + Text.byteLength span
  match rest.drop span.length with
  | ']' :: after => withRest? ⟨target, some (first, last), none, none⟩ (last + 1) after
  | '\x7b' :: inner =>
    let field := inner.takeWhile fun c => c != '\x7d'
    let stop := last + 1 + Text.byteLength field
    let o : Outline :=
      ⟨target, if span.isEmpty then none else some (first, last), some (last + 1, stop), none⟩
    match inner.drop field.length with
    | '\x7d' :: ']' :: after => if field.isEmpty then none else o.withRest? (stop + 2) after
    | _ => none
  | _ => none

def ofText? (t : Text) : Option Outline :=
  let target := t.takeWhile fun c => c != '=' && c != '['
  let n := Text.byteLength target
  if !t.head?.any isStart then none
  else match t.drop target.length with
    | '[' :: rest => withSpan? n rest
    | rest => withRest? ⟨n, none, none, none⟩ n rest

/-- The text has no other part than its beginning. -/
def isBare (o : Outline) : Bool := o.span.isNone && o.field.isNone && o.threshold.isNone

end Outline

/-- The demand that stands between two places. No places, no demand. -/
def fieldAt? (t : Text) : Option (Nat × Nat) → Option (Option FieldDemand)
  | none => some none
  | some p => (FieldDemand.ofText? (t.slice p.1 p.2)).map some

/-- The threshold that a directive gives after its equals sign: all events if it gives none. -/
def thresholdOf? : Option Text → Option Threshold
  | none | some [] => some (.upTo .trace)
  | some t => Threshold.ofText? t

/-- Reads a directive. The parts are found in the text without the white space around it, and cut
out of the whole text at the same places; so a directive with white space before it is meant for no
event, or is none. -/
def ofText? (t : Text) : Option Directive :=
  match Outline.ofText? t.trimBlanks with
  | none => none
  | some o =>
    if o.isBare then
      some (match Threshold.ofText? t with
        | some l => everywhere l
        | none => ⟨t, none, none, .upTo .trace⟩)
    else do
      let field ← fieldAt? t o.field
      let threshold ← thresholdOf? (o.threshold.map fun n => t.dropBytes n)
      return ⟨t.takeBytes o.target, o.span.map fun p => t.slice p.1 p.2, field, threshold⟩

end Directive

end CommandVetting
