import CommandVetting.Pattern.Basic

/-!
# The tokens of pattern text

* `PatternToken`: what the characters of pattern text stand for;
* `PatternToken.scan?`: the tokens of a text, or nothing when it uses a feature that rules do not
  have, among them **the general word boundary `\b`**.
-/

namespace CommandVetting

inductive PatternToken where
  | one (k : CharClass)
  | boundary
  | start
  | stop
  | star
  | plus
  | optional
  | bar
  | openGroup
  | closeGroup
  deriving DecidableEq, Repr

namespace PatternToken

/-- What a character after a backslash stands for: two classes, or itself if it is punctuation. -/
def escape? : Char → Option PatternToken
  | 's' => some (.one .blank)
  | 'w' => some (.one .word)
  | c => if c.isAlphanum || c.toNat < 0x21 || 0x7E < c.toNat then none
    else some (.one (.literal c))

/-- What a character outside brackets and escapes stands for. -/
def plain? : Char → Option PatternToken
  | '.' => some (.one .anyInLine)
  | '^' => some .start
  | '$' => some .stop
  | '*' => some .star
  | '+' => some .plus
  | '?' => some .optional
  | '|' => some .bar
  | '(' => some .openGroup
  | ')' => some .closeGroup
  | '[' | ']' | '{' | '}' | '\\' => none
  | c => some (.one (.literal c))

/-- A character of a bracketed list that stands for itself. -/
def isMember (c : Char) : Bool :=
  !(c == '[' || c == '\\' || c == '^' || c == '-' || c == '&' || c == '~')

/-- The tokens of a text. In a bracketed list, `members?` holds the characters read so far. -/
def scanWith? (members? : Option (List Char)) : Text → Option (List PatternToken)
  | [] => if members?.isSome then none else some []
  | c :: r => match members? with
    | some members =>
      if c == ']' then
        if members.isEmpty then none
        else (scanWith? none r).map (.one (.anyOf members.reverse) :: ·)
      else if isMember c then scanWith? (some (c :: members)) r
      else none
    | none => match c, r with
      | '[', r => scanWith? (some []) r
      | '(', '?' :: ':' :: r => (scanWith? none r).map (.openGroup :: ·)
      | '(', '?' :: '-' :: 'u' :: ':' :: '\\' :: 'b' :: ')' :: r =>
        (scanWith? none r).map (.boundary :: ·)
      | '(', '?' :: _ => none
      | '\\', c :: r => do return (← escape? c) :: (← scanWith? none r)
      | c, r => do return (← plain? c) :: (← scanWith? none r)

def scan? : Text → Option (List PatternToken) := scanWith? none

end PatternToken

end CommandVetting
