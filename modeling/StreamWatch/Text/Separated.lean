/-!
# Separated text

A text is cut at every mark of one kind, so there is always one part more than there are marks.
-/

namespace StreamWatch.Separated

/-- The parts of a text between its marks. -/
def split (mark : Char) : List Char → List (List Char)
  | [] => [[]]
  | c :: rest =>
    if c = mark then [] :: split mark rest
    else
      match split mark rest with
      | [] => [[c]]
      | part :: parts => (c :: part) :: parts

/-- The parts of a string. -/
def splitString (mark : Char) (s : String) : List String :=
  (split mark s.toList).map String.ofList

end StreamWatch.Separated
