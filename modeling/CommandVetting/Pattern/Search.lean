import CommandVetting.Pattern.Basic

/-!
# Searching a text

The search walks through the text and tries the pattern at every place. A try hands every place
where a span can end to the rest of the pattern.

* `Cursor`: a place of a text, seen from the inside;
* `Pattern.run`: **does a span start here after which the rest succeeds**;
* `Pattern.search`: does the pattern derive some span.

A repetition is followed at most as often as there are characters left: a round that consumes
nothing leads back to the place where it started.
-/

namespace CommandVetting

/-- A place of a text: the character before it and the text after it. -/
structure Cursor where
  before : Option Char
  rest : Text

namespace Pattern

/-- At most `n` rounds of `round`, then `k`. -/
def rounds (round : (Cursor → Bool) → Cursor → Bool) (k : Cursor → Bool) : Nat → Cursor → Bool
  | 0, c => k c
  | n + 1, c => k c || round (rounds round k n) c

/-- Some span of the pattern starts at the cursor and ends where `k` holds. -/
def run : Pattern → (Cursor → Bool) → Cursor → Bool
  | empty, k, c => k c
  | one s, k, c => match c.rest with
    | [] => false
    | a :: r => s.contains a && k ⟨some a, r⟩
  | seq p q, k, c => p.run (q.run k) c
  | alt p q, k, c => p.run k c || q.run k c
  | star p, k, c => rounds p.run k c.rest.length c
  | boundary, k, c => isBoundary c.before c.rest.head? && k c
  | start, k, c => c.before.isNone && k c
  | stop, k, c => c.rest.isEmpty && k c

/-- Some span of the pattern starts at a cursor or later. -/
def searchFrom (p : Pattern) (before : Option Char) : Text → Bool
  | [] => p.run (fun _ => true) ⟨before, []⟩
  | a :: r => p.run (fun _ => true) ⟨before, a :: r⟩ || searchFrom p (some a) r

/-- The pattern derives some span of the text. -/
def search (p : Pattern) (t : Text) : Bool := p.searchFrom none t

end Pattern

end CommandVetting
