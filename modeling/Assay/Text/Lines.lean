/-!
# Text — Lines

The lines of a text. A line feed ends a line, and a carriage return just before it goes with it;
what follows the last line feed is a line if it is not empty.
-/

namespace Assay.Text

/-- Cuts a text after each of its line feeds. -/
def pieces : List Char → List (List Char) :=
  List.foldr (fun c ps =>
    if c = '\n' then [c] :: ps
    else match ps with
      | []      => [[c]]
      | p :: ps => (c :: p) :: ps) []

/-- A piece without its line end. -/
def chomp (piece : List Char) : List Char :=
  match piece.reverse with
  | '\n' :: '\r' :: r => r.reverse
  | '\n' :: r         => r.reverse
  | _                 => piece

/-- The lines of `s`, without their ends. -/
def lines (s : String) : List String :=
  (pieces s.toList).map fun p => String.ofList (chomp p)

/-- Ends each line with a line feed and joins them. -/
def unlines (ls : List String) : String :=
  String.join (ls.map (· ++ "\n"))

end Assay.Text
