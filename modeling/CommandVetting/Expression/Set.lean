import CommandVetting.Expression.Primitive

/-!
# Sets in brackets

A set is written in square brackets. It has characters, ranges, classes and other sets as members,
and two sets can be intersected or subtracted inside the brackets.

* `rowDepth`: how deep a row of parts is nested;
* `OpenSet`: a set whose bracket has not been closed yet;
* **`readSet?`: reads a set from its opening bracket to its closing one, and tells how deep it is
  nested**. A bracket that closes right after the opening one is a member of the set.
-/

namespace CommandVetting

namespace Expression

/-- How deep a row of parts is nested: a row of one part is that part. -/
def rowDepth : List Nat → Nat
  | [] => 0
  | [d] => d
  | ds => ds.foldr max 0 + 1

/-- A set that is being read. -/
structure OpenSet where
  /-- The set is the complement of what its members say. -/
  negated : Bool
  /-- Nothing but hyphens has been read. -/
  fresh : Bool
  /-- The depths of the members after the last operator. -/
  members : List Nat
  /-- The depth of what stands before the last operator. -/
  left : Option Nat
  deriving DecidableEq, Repr

namespace OpenSet

/-- How deep the set is nested so far. -/
def depth (s : OpenSet) : Nat :=
  match s.left with
  | none => rowDepth s.members
  | some l => max l (rowDepth s.members) + 1

/-- Adds a member of a depth. -/
def add (s : OpenSet) (d : Nat) : OpenSet := { s with fresh := false, members := d :: s.members }

/-- Adds a hyphen at the start of the set. -/
def addHyphen (s : OpenSet) : OpenSet := { s with members := 0 :: s.members }

/-- Starts the right side of an operator. -/
def operate (s : OpenSet) : OpenSet :=
  { s with fresh := false, members := [], left := some s.depth }

end OpenSet

/-- Reads the opening of a set after its bracket. -/
def openSet (m : Mode) (t : Text) : OpenSet × Text :=
  match m.skip t with
  | '^' :: r => (⟨true, true, [], none⟩, r)
  | t => (⟨false, true, [], none⟩, t)

/-- The names of the classes that may stand between colons in a set. -/
def classNames : List Text :=
  ["alnum", "alpha", "ascii", "blank", "cntrl", "digit", "graph", "lower", "print", "punct",
   "space", "upper", "word", "xdigit"]

/-- Reads a named class after its bracket, and tells if it is a complement. -/
def readNamed? : Text → Option (Bool × Text)
  | ':' :: t =>
    let negated := t.head? == some '^'
    let t := if negated then t.drop 1 else t
    let name := t.takeWhile (· != ':')
    match t.drop name.length with
    | ':' :: ']' :: r => if classNames.contains name then some (negated, r) else none
    | _ => none
  | _ => none

/-- The character that tells a range from a hyphen: the next one, and in a spaced mode the next one
past white space and past one number sign with the white space after it. -/
def ahead (m : Mode) (t : Text) : Option Char :=
  if m.spaced then
    match t.dropWhile isBlank with
    | '#' :: r => (r.dropWhile isBlank).head?
    | r => r.head?
  else t.head?

/-- Reads the upper end of a range. -/
def readUpper? (m : Mode) (lower : Primitive) (t : Text) : Option Text :=
  match readMember? m (m.skip t) with
  | none => none
  | some (upper, r) => match lower.literal?, upper.literal? with
    | some a, some b =>
      if lower.isMember m && upper.isMember m && a.toNat ≤ b.toNat then some r else none
    | _, _ => none

/-- Reads a member of a set that is one primitive or a range. -/
def readRange? (m : Mode) (t : Text) : Option Text :=
  match readMember? m t with
  | none => none
  | some (p, r) => match m.skip r with
    | [] => none
    | '-' :: u =>
      if ahead m u == some ']' || ahead m u == some '-' then
        if p.isMember m then some ('-' :: u) else none
      else readUpper? m p u
    | r => if p.isMember m then some r else none

/-- Reads on in a set inside other sets, at most `n` steps. -/
def readSetWith? (m : Mode) : Nat → OpenSet → List OpenSet → Text → Option (Nat × Text)
  | 0, _, _, _ => none
  | n + 1, s, outer, t => match m.skip t with
    | [] => none
    | '[' :: r => match readNamed? r with
      | some (negated, r) =>
        if m.unicode || !negated then readSetWith? m n (s.add 0) outer r else none
      | none =>
        let (inner, r) := openSet m r
        readSetWith? m n inner ({ s with fresh := false } :: outer) r
    | ']' :: r =>
      if s.fresh && s.members.isEmpty then readSetWith? m n (s.add 0) outer r
      else if s.negated && !m.unicode then none
      else match outer with
        | [] => some (s.depth + 1, r)
        | o :: os => readSetWith? m n (o.add (s.depth + 1)) os r
    | '-' :: r =>
      if s.fresh then readSetWith? m n s.addHyphen outer r
      else match r with
        | '-' :: r => readSetWith? m n s.operate outer r
        | r => (readRange? m ('-' :: r)).bind (readSetWith? m n (s.add 0) outer)
    | '&' :: '&' :: r => readSetWith? m n s.operate outer r
    | '~' :: '~' :: r => readSetWith? m n s.operate outer r
    | t => (readRange? m t).bind (readSetWith? m n (s.add 0) outer)

/-- Reads a set after its opening bracket, and tells its depth. -/
def readSet? (m : Mode) (t : Text) : Option (Nat × Text) :=
  let (s, r) := openSet m t
  readSetWith? m (t.length + 1) s [] r

end Expression

end CommandVetting
