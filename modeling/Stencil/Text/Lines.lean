/-!
# Text/Lines — line ends and lines

A text file may end its lines with a line feed, a carriage return or the two together. `unifyEnds`
turns each of the three into a line feed, and `lines` cuts the text after each line feed; what
follows the last one is a line too, unless it is empty.
-/

namespace Stencil.Text

/-- Every line end as a line feed. -/
def unifyEnds : List Char → List Char
  | [] => []
  | '\r' :: '\n' :: rest => '\n' :: unifyEnds rest
  | c :: rest => (if c = '\r' then '\n' else c) :: unifyEnds rest

/-- The lines of a text whose lines end with line feeds, without those. -/
def lines : List Char → List (List Char)
  | [] => []
  | c :: rest =>
    if c = '\n' then [] :: lines rest
    else
      match lines rest with
      | [] => [[c]]
      | line :: more => (c :: line) :: more

@[simp] theorem unifyEnds_nil : unifyEnds [] = [] := rfl

@[simp] theorem lines_nil : lines [] = [] := rfl

end Stencil.Text
