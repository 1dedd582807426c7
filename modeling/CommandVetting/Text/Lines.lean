import CommandVetting.Text.Basic

/-!
# Lines

A line ends with a line feed, before which one carriage return is dropped. What follows the last
line feed is one more line if it is not empty, and keeps all its characters.

* `pieces`: a list cut at a separator, with **one piece more than there are separators**;
* `lines`: the lines of a text;
* `ofPieces`: the step from pieces to lines, which is the same for texts and for decoded bytes.
-/

namespace CommandVetting

/-- The pieces of a list between the occurrences of a separator. -/
def pieces {α : Type} [BEq α] (sep : α) (l : List α) : List (List α) :=
  l.foldr (fun a ps =>
    if a == sep then [] :: ps
    else match ps with
      | [] => [[a]]
      | p :: ps => (a :: p) :: ps) [[]]

namespace Text

/-- The text without one carriage return at its end. -/
def chomp (t : Text) : Text :=
  if t.getLast? == some '\r' then t.dropLast else t

/-- The lines that the pieces between line feeds make up: every piece but the last was ended by a
line feed, and the last is a line unless it is empty. -/
def ofPieces (ps : List Text) : List Text :=
  ps.dropLast.map chomp ++ ps.getLast?.toList.filter fun p => !p.isEmpty

def lines (t : Text) : List Text := ofPieces (pieces '\n' t)

end Text

end CommandVetting
