/-!
# Finding and cutting text

Occurrences are looked for from left to right, character by character. Cutting at a separator takes
non-overlapping occurrences: after one is found the search goes on behind it.
-/

namespace DarijaScript.Text

/-- The least position at which `needle` occurs, counted on from `position`. -/
def indexFrom? (needle : List Char) : (position : Nat) → List Char → Option Nat
  | position, [] => if needle.isEmpty then some position else none
  | position, c :: rest =>
    if needle.isPrefixOf (c :: rest) then some position else indexFrom? needle (position + 1) rest

/-- The least position at which `needle` occurs in the text. -/
def indexOf? (needle text : List Char) : Option Nat := indexFrom? needle 0 text

/--
The parts of a text between the occurrences of a separator. `skip` characters still belong to the
last occurrence, and `part` holds the current part in reverse.
-/
def splitFrom (separator : List Char) :
    (skip : Nat) → (part : List Char) → List Char → List (List Char)
  | _, part, [] => [part.reverse]
  | skip + 1, part, _ :: rest => splitFrom separator skip part rest
  | 0, part, c :: rest =>
    if separator.isPrefixOf (c :: rest) then
      part.reverse :: splitFrom separator (separator.length - 1) [] rest
    else splitFrom separator 0 (c :: part) rest

/-- The parts of a text between the occurrences of a separator that is not empty. -/
def splitOn (separator text : List Char) : List (List Char) := splitFrom separator 0 [] text

end DarijaScript.Text
