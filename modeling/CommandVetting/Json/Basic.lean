import CommandVetting.Text.Basic

/-!
# JSON

* `Json`: the values that records are made of; an object keeps the order of its members;
* `Json.quote`: a text as a string literal, **without a control character**;
* `Json.compact`: a value on one line;
* `Json.pretty`: a value over several lines, indented by two blanks a level.
-/

namespace CommandVetting

/-- A JSON value. A number is kept as it is written. -/
inductive Json where
  | null
  | bool (b : Bool)
  | num (literal : Text)
  | str (t : Text)
  | arr (items : List Json)
  | obj (members : List (Text × Json))
  deriving Repr

namespace Json

/-- A digit in lower-case hexadecimal. -/
def hexDigit (n : Nat) : Char := Nat.digitChar n

/-- A character inside a string literal: quotation mark and backslash have a backslash before
them, and a control character is written as an escape, a short one if there is one. -/
def escape (c : Char) : Text :=
  if c == '"' then ['\\', '"']
  else if c == '\\' then ['\\', '\\']
  else if c == '\x08' then ['\\', 'b']
  else if c == '\x0C' then ['\\', 'f']
  else if c == '\n' then ['\\', 'n']
  else if c == '\r' then ['\\', 'r']
  else if c == '\t' then ['\\', 't']
  else if c.toNat < 0x20 then
    ['\\', 'u', '0', '0', hexDigit (c.toNat / 0x10), hexDigit (c.toNat % 0x10)]
  else [c]

/-- A text as a string literal. -/
def quote (t : Text) : Text := '"' :: t.flatMap escape ++ ['"']

/-- The texts with a separator between them. -/
def joined (sep : Text) : List Text → Text
  | [] => []
  | [t] => t
  | t :: ts => t ++ sep ++ joined sep ts

mutual

/-- The value on one line. -/
def compact : Json → Text
  | null => "null"
  | num t => t
  | bool true => "true"
  | bool false => "false"
  | str t => quote t
  | arr items => '[' :: joined [','] (compactItems items) ++ [']']
  | obj members => '\x7b' :: joined [','] (compactMembers members) ++ ['\x7d']

/-- The items of an array, each on one line. -/
def compactItems : List Json → List Text
  | [] => []
  | j :: js => compact j :: compactItems js

/-- The members of an object, each on one line. -/
def compactMembers : List (Text × Json) → List Text
  | [] => []
  | (k, j) :: ms => (quote k ++ ':' :: compact j) :: compactMembers ms

end

/-- A line feed and the indentation of a level. -/
def newline (level : Nat) : Text := '\n' :: List.replicate (2 * level) ' '

/-- Texts between brackets, each on a line of its own at the level inside. -/
def block (opening closing : Char) (level : Nat) : List Text → Text
  | [] => [opening, closing]
  | ts => opening :: newline (level + 1) ++ joined (',' :: newline (level + 1)) ts ++
      newline level ++ [closing]

mutual

/-- The value over several lines, starting at a level. -/
def prettyAt (level : Nat) : Json → Text
  | null => "null"
  | num t => t
  | bool true => "true"
  | bool false => "false"
  | str t => quote t
  | arr items => block '[' ']' level (prettyItems (level + 1) items)
  | obj members => block '\x7b' '\x7d' level (prettyMembers (level + 1) members)

def prettyItems (level : Nat) : List Json → List Text
  | [] => []
  | j :: js => prettyAt level j :: prettyItems level js

def prettyMembers (level : Nat) : List (Text × Json) → List Text
  | [] => []
  | (k, j) :: ms => (quote k ++ ':' :: ' ' :: prettyAt level j) :: prettyMembers level ms

end

/-- The value over several lines. -/
def pretty (j : Json) : Text := prettyAt 0 j

end Json

end CommandVetting
