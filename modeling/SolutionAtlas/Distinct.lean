-- SUMMARY: The first of all elements that share a key.

/-!
# First of each key

`firstOfEach` keeps, of several elements with one key, the first, and leaves the order as it is.
-/

namespace SolutionAtlas

/-- The elements whose key is not among `seen` nor that of an earlier element. -/
def firstUnseen {α β : Type} [DecidableEq β] (key : α → β) : List β → List α → List α
  | _, [] => []
  | seen, x :: xs =>
    if key x ∈ seen then firstUnseen key seen xs else x :: firstUnseen key (key x :: seen) xs

/-- The elements that are the first with their key. -/
def firstOfEach {α β : Type} [DecidableEq β] (key : α → β) (xs : List α) : List α :=
  firstUnseen key [] xs

end SolutionAtlas
