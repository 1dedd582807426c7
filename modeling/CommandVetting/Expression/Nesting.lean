import CommandVetting.Expression.Token

/-!
# The build of an expression

The tokens of an expression are read with a stack of groups that have not been closed yet.

* `OpenGroup`, `step`, `run`: the stack, and what a token does to it;
* `depth?`: **how deep an expression is nested**, or nothing if its groups do not close or something
  is repeated that is not there;
* **`isReadable`: the text is an expression**, not nested too deeply, and with different names for
  different groups.
-/

namespace CommandVetting

namespace Expression

inductive Part where
  /-- Flags, which cannot be repeated. -/
  | flags
  | node (depth : Nat)
  deriving DecidableEq, Repr

def Part.depth : Part → Nat
  | flags => 0
  | node d => d

/-- A group that is being read. -/
structure OpenGroup where
  /-- The parts of the last alternative, the last part first. -/
  row : List Part
  /-- The depths of the alternatives before it. -/
  before : List Nat
  deriving DecidableEq, Repr

namespace OpenGroup

def empty : OpenGroup := ⟨[], []⟩

/-- How deep the last alternative is nested. -/
def lastDepth (g : OpenGroup) : Nat := rowDepth (g.row.map Part.depth)

/-- How deep the inside of the group is nested. -/
def depth (g : OpenGroup) : Nat := rowDepth (g.lastDepth :: g.before)

def add (g : OpenGroup) (p : Part) : OpenGroup := { g with row := p :: g.row }

/-- Starts another alternative. -/
def alternate (g : OpenGroup) : OpenGroup := ⟨[], g.lastDepth :: g.before⟩

/-- Repeats the last part. -/
def repeat? (g : OpenGroup) : Option OpenGroup :=
  match g.row with
  | .node d :: row => some { g with row := .node (d + 1) :: row }
  | _ => none

end OpenGroup

/-- What a token does to the groups that are open, the innermost first. -/
def step : Token → List OpenGroup → Option (List OpenGroup)
  | .opening _, gs => some (.empty :: gs)
  | .closing, g :: h :: gs => some (h.add (.node (g.depth + 1)) :: gs)
  | .bar, g :: gs => some (g.alternate :: gs)
  | .flags, g :: gs => some (g.add .flags :: gs)
  | .repeated, g :: gs => g.repeat?.map (· :: gs)
  | .atom d, g :: gs => some (g.add (.node d) :: gs)
  | _, _ => none

/-- What tokens do to the groups that are open. -/
def run : List Token → List OpenGroup → Option (List OpenGroup)
  | [], gs => some gs
  | t :: ts, gs => (step t gs).bind (run ts)

theorem run_append (ts us : List Token) (gs : List OpenGroup) :
    run (ts ++ us) gs = (run ts gs).bind (run us) := by
  induction ts generalizing gs with
  | nil => rfl
  | cons t ts ih =>
    rw [List.cons_append, run, run, Option.bind_assoc]
    exact congrArg _ (funext ih)

/-- How deep an expression with the tokens is nested. -/
def depth? (ts : List Token) : Option Nat :=
  match run ts [.empty] with
  | some [g] => some g.depth
  | _ => none

/-- The name that a token gives to a group. -/
def Token.name? : Token → Option Text
  | .opening name => name
  | .closing | .bar | .flags | .repeated | .atom _ => none

def maxDepth : Nat := 250

/-- The text is an expression. It has no brace that closes after one that opens. -/
def isReadable (t : Text) : Bool :=
  match tokens? t with
  | none => false
  | some ts => decide (ts.filterMap Token.name?).Nodup && (depth? ts).any (· ≤ maxDepth)

end Expression

end CommandVetting
