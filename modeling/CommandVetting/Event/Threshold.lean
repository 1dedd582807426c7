import CommandVetting.Event.Basic

/-!
# Thresholds

A threshold shows the events up to a level.

* `Threshold`, and `admits`: **a higher threshold shows at least the same events**;
* `Threshold.ofText?`: the threshold that is written by its name, in capitals or not, or by its
  number.
-/

namespace CommandVetting

/-- Which events are shown. -/
inductive Threshold where
  | off
  | upTo (l : Level)
  deriving DecidableEq, Repr

namespace Threshold

def verbosity : Threshold → Nat
  | off => 0
  | upTo l => l.verbosity

/-- A log with the threshold shows the event. -/
def admits (t : Threshold) (e : Event) : Bool := e.level.verbosity ≤ t.verbosity

/-- Every threshold with its name, in the order of increasing verbosity. -/
def named : List (Text × Threshold) :=
  [("off", off), ("error", upTo .error), ("warn", upTo .warn), ("info", upTo .info),
   ("debug", upTo .debug), ("trace", upTo .trace)]

def ofName? (name : Text) : Option Threshold := named.lookup (name.map Char.toLower)

def ofNumber? (n : Nat) : Option Threshold := (named.map Prod.snd)[n]?

def ofText? (t : Text) : Option Threshold := (t.toNat?.bind ofNumber?).or (ofName? t)

theorem ofNumber?_verbosity (t : Threshold) : ofNumber? t.verbosity = some t := by
  cases t with
  | off => rfl
  | upTo l => cases l <;> rfl

theorem admits_mono {s t : Threshold} (h : s.verbosity ≤ t.verbosity) {e : Event}
    (he : s.admits e = true) : t.admits e = true := by
  simp only [admits, decide_eq_true_eq] at he ⊢
  omega

end Threshold

end CommandVetting
