import CommandVetting.Pattern.Token

/-!
# Reading pattern text

A repetition binds to the item before it, then items follow one another, then come the
alternatives. Groups nest.

* `Branches`: what has been read of a group;
* **`Pattern.parse?`**: the tree that a pattern text stands for, if it stands for one.
-/

namespace CommandVetting

/-- What has been read of a group: the alternatives that are finished, and the items of the one
being read, the last first. -/
structure Branches where
  done : Option Pattern
  items : List Pattern

namespace Branches

/-- A group of which nothing has been read. -/
def fresh : Branches := ⟨none, []⟩

/-- The pattern read so far. -/
def pattern (b : Branches) : Pattern :=
  let last := Pattern.ofSeq b.items.reverse
  match b.done with
  | none => last
  | some p => p.alt last

def push (b : Branches) (p : Pattern) : Branches := { b with items := p :: b.items }

/-- The last item repeated. -/
def repeat? (b : Branches) (f : Pattern → Pattern) : Option Branches :=
  match b.items with
  | [] => none
  | p :: ps => some { b with items := f p :: ps }

def next (b : Branches) : Branches := ⟨some b.pattern, []⟩

end Branches

namespace Pattern

/-- Reads tokens into the innermost group, with the groups around it at hand. -/
def ofTokens? (outer : List Branches) (b : Branches) : List PatternToken → Option Pattern
  | [] => if outer.isEmpty then some b.pattern else none
  | .one k :: r => ofTokens? outer (b.push (.one k)) r
  | .boundary :: r => ofTokens? outer (b.push .boundary) r
  | .start :: r => ofTokens? outer (b.push .start) r
  | .stop :: r => ofTokens? outer (b.push .stop) r
  | .star :: r => (b.repeat? .star).bind (ofTokens? outer · r)
  | .plus :: r => (b.repeat? .plus).bind (ofTokens? outer · r)
  | .optional :: r => (b.repeat? .optional).bind (ofTokens? outer · r)
  | .bar :: r => ofTokens? outer b.next r
  | .openGroup :: r => ofTokens? (b :: outer) .fresh r
  | .closeGroup :: r => match outer with
    | [] => none
    | o :: os => ofTokens? os (o.push b.pattern) r

/-- The tree that a pattern text stands for. -/
def parse? (t : Text) : Option Pattern := (PatternToken.scan? t).bind (ofTokens? [] .fresh)

end Pattern

end CommandVetting
