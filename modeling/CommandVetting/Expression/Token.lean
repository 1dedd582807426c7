import CommandVetting.Expression.Set
import CommandVetting.Text.Alphanumeric

/-!
# The tokens of an expression

* `Token`: what groups, alternatives and repetitions are built from;
* **`tokens?`: the tokens of a text**, or nothing if one of them cannot be read. Flags hold to the
  end of the group in which they stand.
-/

namespace CommandVetting

namespace Expression

inductive Token where
  /-- A group begins; it may have a name. -/
  | opening (name : Option Text)
  | closing
  | bar
  /-- Flags for the rest of a group. -/
  | flags
  /-- What stands before is repeated. -/
  | repeated
  /-- A primitive or a set, with the depth to which it is nested. -/
  | atom (depth : Nat)
  deriving DecidableEq, Repr

/-- What an opening parenthesis begins. -/
inductive Opening where
  | group (name : Option Text) (flags : Text)
  | flags (t : Text)
  deriving DecidableEq, Repr

/-- A name of a group: it starts with a letter or an underscore, and numbers, points and square
brackets may follow. -/
def isGroupName : Text → Bool
  | [] => false
  | c :: r =>
    (c == '_' || isAlphabetic c) &&
      r.all fun d => d == '_' || d == '.' || d == '[' || d == ']' || isAlphanumeric d

/-- Reads the name of a group up to its angle bracket. -/
def readName? (t : Text) : Option (Opening × Text) :=
  let name := t.takeWhile (· != '>')
  match t.drop name.length with
  | [] => none
  | _ :: r => if isGroupName name then some (.group (some name) [], r) else none

/-- Reads flags, with a group after them or without. Without a group there must be a flag. -/
def readFlags? (t : Text) : Option (Opening × Text) :=
  let flags := t.takeWhile fun c => c != ':' && c != ')'
  if !isFlags flags then none
  else match t.drop flags.length with
    | ':' :: r => some (.group none flags, r)
    | ')' :: r => if flags.isEmpty then none else some (.flags flags, r)
    | _ => none

/-- Reads what stands after an opening parenthesis. A look ahead or behind is no part of an
expression. -/
def readOpening? : Text → Option (Opening × Text)
  | '?' :: '=' :: _ | '?' :: '!' :: _ | '?' :: '<' :: '=' :: _ | '?' :: '<' :: '!' :: _ => none
  | '?' :: 'P' :: '<' :: r | '?' :: '<' :: r => readName? r
  | '?' :: r => readFlags? r
  | t => some (.group none [], t)

/-- The text without a question mark at its start. -/
def dropQuestion : Text → Text
  | '?' :: r => r
  | t => t

/-- Reads on in a mode inside groups whose modes are given, at most `n` tokens. -/
def tokensWith? : Nat → Mode → List Mode → Text → Option (List Token)
  | 0, _, _, _ => none
  | n + 1, m, outer, t => match m.skip t with
    | [] => some []
    | '(' :: r => match readOpening? (m.skip r) with
      | none => none
      | some (.flags fs, r) => (tokensWith? n (m.set fs) outer r).map (.flags :: ·)
      | some (.group name fs, r) =>
        (tokensWith? n (m.set fs) (m :: outer) r).map (.opening name :: ·)
    | ')' :: r => match outer with
      | [] => none
      | o :: os => (tokensWith? n o os r).map (.closing :: ·)
    | '|' :: r => (tokensWith? n m outer r).map (.bar :: ·)
    | '?' :: r | '*' :: r | '+' :: r =>
      (tokensWith? n m outer (dropQuestion r)).map (.repeated :: ·)
    | '\x7b' :: _ => none
    | '[' :: r => (readSet? m r).bind fun (d, r) => (tokensWith? n m outer r).map (.atom d :: ·)
    | t => (readPrimitive? m t).bind fun (p, r) =>
      if p.isAllowed m then (tokensWith? n m outer r).map (.atom 0 :: ·) else none

def tokens? (t : Text) : Option (List Token) := tokensWith? (t.length + 1) .standard [] t

end Expression

end CommandVetting
