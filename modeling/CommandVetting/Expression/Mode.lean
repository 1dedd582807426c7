import CommandVetting.Text.Blank

/-!
# Modes of reading

An expression is read from left to right in a mode, which flags in its text change. Only two flags
matter to whether a text is an expression.

* `Mode`: is white space skipped, and do characters count or bytes;
* `Mode.skip`: skips white space and comments, **if the mode says so**;
* `Mode.set`: the mode after flags; `isFlags`: **no flag may stand twice**.
-/

namespace CommandVetting

namespace Expression

/-- How the text of an expression is read. -/
structure Mode where
  /-- White space and comments between the parts mean nothing. -/
  spaced : Bool
  /-- An expression is about characters, and otherwise about bytes. -/
  unicode : Bool
  deriving DecidableEq, Repr

/-- What follows white space and comments. A comment ends with its line. -/
def afterSpace (inComment : Bool) : Text → Text
  | [] => []
  | c :: r =>
    if inComment then afterSpace (c != '\n') r
    else if isBlank c then afterSpace false r
    else if c == '#' then afterSpace true r
    else c :: r

def flagLetters : Text := "imsUuRx"

/-- Flags: letters, and perhaps a hyphen before those that are switched off. Nothing stands twice,
and something stands after the hyphen. -/
def isFlags (t : Text) : Bool :=
  t.all (fun c => c == '-' || flagLetters.contains c) && decide t.Nodup && t.getLast? != some '-'

/-- What flags say about the flag with a letter. -/
def flag? (flags : Text) (letter : Char) : Option Bool :=
  if (flags.takeWhile (· != '-')).contains letter then some true
  else if flags.contains letter then some false
  else none

namespace Mode

/-- The mode at the start of an expression. -/
def standard : Mode := ⟨false, true⟩

/-- What follows the white space and the comments that the mode skips. -/
def skip (m : Mode) (t : Text) : Text := if m.spaced then afterSpace false t else t

/-- The mode after flags. -/
def set (m : Mode) (flags : Text) : Mode :=
  ⟨(flag? flags 'x').getD m.spaced, (flag? flags 'u').getD m.unicode⟩

end Mode

end Expression

end CommandVetting
