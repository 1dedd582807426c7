import CommandVetting.Text.Blank
import CommandVetting.Text.Word
import CommandVetting.Text.Folding

/-!
# Patterns

A pattern describes spans of a text. Whether a span fits may depend on what surrounds it: the ends
of words and of the text are seen from the inside.

* `CharClass`: sets of characters, literals being equal up to case;
* `Pattern`: the trees, with every repetition written with `star`;
* **`Derives p before span after`**: the meaning of a pattern, one rule per way to build it;
* `Pattern.OccursIn`: the pattern derives some span of the text.
-/

namespace CommandVetting

/-- A set of characters that a pattern can name. -/
inductive CharClass where
  /-- The case variants of a character. -/
  | literal (c : Char)
  /-- Every character but the line feed. -/
  | anyInLine
  /-- White space. -/
  | blank
  /-- The word characters of every script. -/
  | word
  /-- The case variants of the listed characters. -/
  | anyOf (cs : List Char)
  deriving DecidableEq, Repr

def CharClass.contains : CharClass → Char → Bool
  | literal c, d => isVariant c d
  | anyInLine, d => d != '\n'
  | blank, d => isBlank d
  | word, d => isWord d
  | anyOf cs, d => cs.any (isVariant · d)

inductive Pattern where
  | empty
  | one (k : CharClass)
  /-- A span of the first pattern followed by one of the second. -/
  | seq (p q : Pattern)
  /-- A span of either pattern. -/
  | alt (p q : Pattern)
  /-- Any number of spans of the pattern, one after the other. -/
  | star (p : Pattern)
  /-- The empty span at the start or the end of an ASCII word. -/
  | boundary
  /-- The empty span at the start of the text. -/
  | start
  /-- The empty span at the end of the text. -/
  | stop
  deriving DecidableEq, Repr

namespace Pattern

/-- At least one span of the pattern. -/
def plus (p : Pattern) : Pattern := p.seq p.star

def optional (p : Pattern) : Pattern := p.alt empty

/-- The patterns one after the other. -/
def ofSeq : List Pattern → Pattern
  | [] => empty
  | [p] => p
  | p :: ps => p.seq (ofSeq ps)

end Pattern

/-- **The meaning of patterns**: the pattern derives the span between what stands before it and
what stands after it. -/
inductive Derives : Pattern → Text → Text → Text → Prop where
  | empty {u w : Text} : Derives .empty u [] w
  | one {k : CharClass} {u w : Text} {c : Char} (h : k.contains c = true) :
    Derives (.one k) u [c] w
  | seq {p q : Pattern} {u v v' w : Text} (left : Derives p u v (v' ++ w))
    (right : Derives q (u ++ v) v' w) : Derives (p.seq q) u (v ++ v') w
  | altLeft {p q : Pattern} {u v w : Text} (h : Derives p u v w) : Derives (p.alt q) u v w
  | altRight {p q : Pattern} {u v w : Text} (h : Derives q u v w) : Derives (p.alt q) u v w
  | starNil {p : Pattern} {u w : Text} : Derives p.star u [] w
  | starCons {p : Pattern} {u v v' w : Text} (left : Derives p u v (v' ++ w))
    (right : Derives p.star (u ++ v) v' w) : Derives p.star u (v ++ v') w
  | boundary {u w : Text} (h : isBoundary u.getLast? w.head? = true) : Derives .boundary u [] w
  | start {w : Text} : Derives .start [] [] w
  | stop {u : Text} : Derives .stop u [] []

/-- The pattern derives a span of the text. -/
def Pattern.OccursIn (p : Pattern) (t : Text) : Prop :=
  ∃ before span after, t = before ++ span ++ after ∧ Derives p before span after

end CommandVetting
