-- SUMMARY: Finite maps from text, as lists in ascending order of keys.

/-!
# Tables

A table lists its entries in ascending order of keys, each key once. The operations keep that order
when they are given it.
-/

namespace SolutionAtlas

abbrev Table (β : Type) := List (String × β)

namespace Table

variable {β : Type}

/-- Sets the value of a key. -/
def insert (key : String) (value : β) : Table β → Table β
  | [] => [(key, value)]
  | (k, v) :: rest =>
    if key < k then (key, value) :: (k, v) :: rest
    else if key = k then (key, value) :: rest
    else (k, v) :: insert key value rest

/-- Forgets a key. -/
def erase (key : String) (t : Table β) : Table β :=
  t.filter fun e => e.1 != key

/-- The value of a key. -/
def get? (key : String) : Table β → Option β
  | [] => none
  | (k, v) :: rest => if k = key then some v else get? key rest

def contains (key : String) (t : Table β) : Bool :=
  (get? key t).isSome

/-- The keys, in ascending order. -/
def keys (t : Table β) : List String :=
  t.map (·.1)

/-- The values, in ascending order of their keys. -/
def values (t : Table β) : List β :=
  t.map (·.2)

end Table

end SolutionAtlas
