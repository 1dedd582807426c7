import CommandVetting.Expression.Mode

/-!
# Primitives

The smallest parts of an expression: characters, classes of characters and places in a text.

* `Primitive`;
* `Primitive.isAllowed`, `Primitive.isMember`: whether a mode admits it, in the open and in a set.
  **An expression about bytes must not match a part of a character**, and it knows no properties of
  characters; **an expression about characters cannot ask for the edge of a word**;
* `readEscape?`: what stands after a backslash.

A brace that opens is never closed in the texts that are read here, so what needs one is no part of
an expression.
-/

namespace CommandVetting

namespace Expression

/-- A smallest part of an expression. -/
inductive Primitive where
  /-- A character. It is `coded` when it is written by the two digits of its code, and then it can
  be meant as a byte. -/
  | literal (c : Char) (coded : Bool)
  /-- One of the classes of digits, blanks and word characters, or its complement. -/
  | kind (negated : Bool)
  /-- The characters of a general category, or all others. -/
  | category
  /-- The start or the end of the text or of a line. -/
  | anchor
  /-- A place at the edge of a word, or one that is none. -/
  | wordEdge
  /-- Any character. -/
  | anything
  deriving DecidableEq, Repr

namespace Primitive

/-- The mode admits the primitive outside sets. -/
def isAllowed (m : Mode) : Primitive → Bool
  | literal c coded => m.unicode || !coded || c.toNat < 0x80
  | kind negated => m.unicode || !negated
  | category => m.unicode
  | anchor => true
  | wordEdge => !m.unicode
  | anything => m.unicode

/-- The mode admits the primitive as a member of a set. -/
def isMember (m : Mode) : Primitive → Bool
  | literal c _ => m.unicode || c.toNat < 0x80
  | kind negated => m.unicode || !negated
  | category => m.unicode
  | anchor | wordEdge | anything => false

def literal? : Primitive → Option Char
  | literal c _ => some c
  | kind _ | category | anchor | wordEdge | anything => none

end Primitive

/-! ## Escapes -/

/-- The value of a digit to base sixteen. -/
def hexValue? (c : Char) : Option Nat :=
  if c.isDigit then some (c.toNat - '0'.toNat)
  else if 'a' ≤ c.toLower ∧ c.toLower ≤ 'f' then some (c.toLower.toNat - 'a'.toNat + 10)
  else none

/-- Reads `n` digits to base sixteen, the value of those before them being `v`. -/
def readHex? (m : Mode) : Nat → Nat → Text → Option (Nat × Text)
  | 0, v, t => some (v, t)
  | n + 1, v, c :: r => (hexValue? c).bind fun d => readHex? m n (16 * v + d) (m.skip r)
  | _ + 1, _, [] => none

/-- Reads a character that is written by the `n` digits of its code. -/
def readCode? (m : Mode) (n : Nat) (t : Text) : Option (Primitive × Text) :=
  (readHex? m n 0 (m.skip t)).bind fun (v, r) =>
    if v.isValidChar then some (.literal (Char.ofNat v) (n == 2), r) else none

def categoryLetters : Text := "clmnpsz"

/-- Reads the letter of a general category. -/
def readCategory? (m : Mode) (t : Text) : Option (Primitive × Text) :=
  match m.skip t with
  | [] => none
  | c :: r => if categoryLetters.contains c.toLower then some (.category, m.skip r) else none

def controlLetters : List (Char × Char) :=
  [('a', '\x07'), ('f', '\x0C'), ('t', '\t'), ('n', '\n'), ('r', '\r'), ('v', '\x0B')]

/-- What a single character after a backslash stands for. Punctuation and the other characters of
ASCII that are no letters or digits stand for themselves. -/
def escaped? (c : Char) : Option Primitive :=
  if c == 'd' || c == 's' || c == 'w' then some (.kind false)
  else if c == 'D' || c == 'S' || c == 'W' then some (.kind true)
  else if c == 'A' || c == 'z' then some .anchor
  else if c == 'b' || c == 'B' || c == '<' || c == '>' then some .wordEdge
  else match controlLetters.lookup c with
    | some control => some (.literal control false)
    | none => if c.isAlphanum || 0x80 ≤ c.toNat then none else some (.literal c false)

/-- Reads what stands after a backslash. -/
def readEscape? (m : Mode) : Text → Option (Primitive × Text)
  | [] => none
  | 'x' :: r => readCode? m 2 r
  | 'u' :: r => readCode? m 4 r
  | 'U' :: r => readCode? m 8 r
  | 'p' :: r | 'P' :: r => readCategory? m r
  | c :: r => (escaped? c).map fun p => (p, r)

/-- Reads a primitive outside sets. -/
def readPrimitive? (m : Mode) : Text → Option (Primitive × Text)
  | [] => none
  | '\\' :: r => readEscape? m r
  | '.' :: r => some (.anything, r)
  | '^' :: r | '$' :: r => some (.anchor, r)
  | c :: r => some (.literal c false, r)

/-- Reads a primitive in a set, where only the backslash is special. -/
def readMember? (m : Mode) : Text → Option (Primitive × Text)
  | [] => none
  | '\\' :: r => readEscape? m r
  | c :: r => some (.literal c false, r)

end Expression

end CommandVetting
