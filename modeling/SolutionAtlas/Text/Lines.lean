-- SUMMARY: Lines of a text, and the line count of a file's bytes.
import SolutionAtlas.Text.Slice

/-!
# Lines

A line ends at a line feed, and a carriage return right before the line feed belongs to the ending.
A final line feed starts no further line. `lines` splits characters, `countLines` counts over bytes.
-/

namespace SolutionAtlas.Text

/-- Drops one carriage return at the end. -/
def dropReturn (s : List Char) : List Char :=
  match s.reverse with
  | '\r' :: r => r.reverse
  | _ => s

/-- The pieces of a text that end in a line feed; a last piece without one keeps what it holds. -/
def linesChars (s : List Char) : List (List Char) :=
  let pieces := splitChars (· == '\n') s
  match pieces.reverse with
  | [] :: earlier => earlier.reverse.map dropReturn
  | last :: earlier => earlier.reverse.map dropReturn ++ [last]
  | [] => []

@[inherit_doc linesChars]
def lines (s : String) : List String :=
  (linesChars s.toList).map String.ofList

/-- The number of lines in the bytes of a file. -/
def countLines (bytes : ByteArray) : Nat :=
  let data := bytes.data.toList
  match data.getLast? with
  | none => 0
  | some last => data.count 10 + (if last == 10 then 0 else 1)

end SolutionAtlas.Text
