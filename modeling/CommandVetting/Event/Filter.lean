import CommandVetting.Event.Directive

/-!
# Filters

A filter is a list of directives. The user gives it as a text with a comma between two directives;
a text in which one of them cannot be read counts as if it were not given.

* `Filter`;
* **`Filter.directive?`: of the directives that are meant for an event, the most specific one
  counts**, and of equally specific ones the last;
* `Filter.admits`: an event that no directive is meant for is not shown;
* `Filter.ofSetting`: the filter that a setting asks for.
-/

namespace CommandVetting

/-- What a log shows. -/
structure Filter where
  directives : List Directive
  deriving DecidableEq, Repr

namespace Filter

/-- The more specific one of a directive and the best of those after it. -/
def prefer (d : Directive) : Option Directive → Directive
  | none => d
  | some best => if d.yieldsTo best then best else d

def directive? (f : Filter) (e : Event) : Option Directive :=
  (f.directives.filter (·.covers e)).foldr (fun d best => some (prefer d best)) none

def thresholdFor (f : Filter) (e : Event) : Threshold :=
  ((f.directive? e).map Directive.threshold).getD .off

/-- A log with the filter shows the event. -/
def admits (f : Filter) (e : Event) : Bool := (f.thresholdFor e).admits e

/-- The filter with one threshold for all events. -/
def uniform (t : Threshold) : Filter := ⟨[.everywhere t]⟩

/-- The filter when none is set. -/
def standard : Filter := uniform (.upTo .info)

/-- Reads a filter. There may be commas without a directive between them. -/
def ofText? (t : Text) : Option Filter :=
  (((pieces ',' t).filter fun p => !p.isEmpty).mapM Directive.ofText?).map Filter.mk

def ofSetting : Option Text → Filter
  | none => standard
  | some t => (ofText? t).getD standard

theorem directive?_uniform (t : Threshold) (e : Event) :
    (uniform t).directive? e = some (.everywhere t) := by
  simp [directive?, uniform, Directive.everywhere_covers, prefer]

theorem thresholdFor_uniform (t : Threshold) (e : Event) : (uniform t).thresholdFor e = t := by
  rw [thresholdFor, directive?_uniform]
  rfl

end Filter

end CommandVetting
