-- SUMMARY: Patterns over lists, matched by trying their choices in order of preference.

/-!
# Patterns

A pattern describes stretches of a list. Where it leaves a choice, it says which way it prefers, and
a match takes the first combination of choices that leads to its end. Only single items repeat, so
every attempt comes to an end.
-/

namespace SolutionAtlas

inductive Pattern (α : Type) where
  /-- The empty stretch. -/
  | empty
  /-- One item that satisfies a condition. -/
  | item (p : α → Bool)
  /-- The empty stretch, between neighbours that satisfy a condition; `none` is an end of the list. -/
  | edge (p : Option α → Option α → Bool)
  /-- One stretch and then another. -/
  | andThen (a b : Pattern α)
  /-- The first of two patterns rather than the second. -/
  | orElse (a b : Pattern α)
  /-- As many items as possible. -/
  | most (p : α → Bool)
  /-- As few items as possible. -/
  | fewest (p : α → Bool)
  /-- A stretch that the match reports. -/
  | group (a : Pattern α)

namespace Pattern

variable {α β : Type}

/-- A cursor in a list, and what has been reported on the way to it. -/
structure Cursor (α : Type) where
  /-- The item right before the cursor. -/
  before : Option α
  rest : List α
  /-- The number of items in front of the cursor. -/
  passed : Nat := 0
  /-- The stretches of the groups, latest first. -/
  groups : List (List α) := []

/-- The cursor behind the next item. -/
def Cursor.skip (pl : Cursor α) (x : α) (rest : List α) : Cursor α :=
  { pl with before := some x, rest, passed := pl.passed + 1 }

/-- Passes as many items as possible before it goes on with `k`. -/
def runMost (p : α → Bool) (k : Cursor α → Option β) (groups : List (List α)) :
    Option α → Nat → List α → Option β
  | before, passed, [] => k ⟨before, [], passed, groups⟩
  | before, passed, x :: rest =>
    if p x then
      match runMost p k groups (some x) (passed + 1) rest with
      | some r => some r
      | none => k ⟨before, x :: rest, passed, groups⟩
    else k ⟨before, x :: rest, passed, groups⟩

/-- Passes as few items as possible before it goes on with `k`. -/
def runFewest (p : α → Bool) (k : Cursor α → Option β) (groups : List (List α)) :
    Option α → Nat → List α → Option β
  | before, passed, [] => k ⟨before, [], passed, groups⟩
  | before, passed, x :: rest =>
    match k ⟨before, x :: rest, passed, groups⟩ with
    | some r => some r
    | none => if p x then runFewest p k groups (some x) (passed + 1) rest else none

/-- Matches a pattern from a cursor and goes on with `k`, whose failure makes it try the next choice. -/
def run : Pattern α → (Cursor α → Option β) → Cursor α → Option β
  | .empty, k, pl => k pl
  | .item p, k, pl =>
    match pl.rest with
    | [] => none
    | x :: rest => if p x then k (pl.skip x rest) else none
  | .edge p, k, pl => if p pl.before pl.rest.head? then k pl else none
  | .andThen a b, k, pl => run a (run b k) pl
  | .orElse a b, k, pl =>
    match run a k pl with
    | some r => some r
    | none => run b k pl
  | .most p, k, pl => runMost p k pl.groups pl.before pl.passed pl.rest
  | .fewest p, k, pl => runFewest p k pl.groups pl.before pl.passed pl.rest
  | .group a, k, pl =>
    run a (fun e => k { e with groups := pl.rest.take (e.passed - pl.passed) :: e.groups }) pl

/-- The end of the match that begins right behind `before`. -/
def matchAt? (p : Pattern α) (before : Option α) (s : List α) : Option (Cursor α) :=
  p.run some ⟨before, s, 0, []⟩

/-- The end of the first match in a list. -/
def find? (p : Pattern α) (before : Option α) : List α → Option (Cursor α)
  | [] => p.matchAt? before []
  | x :: s =>
    match p.matchAt? before (x :: s) with
    | some m => some m
    | none => find? p (some x) s

/-- The ends of at most `limit` matches, each beginning where the one before it ended or later. -/
def findUpTo (p : Pattern α) : Nat → Option α → List α → List (Cursor α)
  | 0, _, _ => []
  | limit + 1, before, s =>
    match p.find? before s with
    | some m => m :: findUpTo p limit m.before m.rest
    | none => []

/-- The ends of all matches in a list, for a pattern that never matches an empty stretch. -/
def findAll (p : Pattern α) (s : List α) : List (Cursor α) :=
  p.findUpTo (s.length + 1) none s

/-- The whole list matches. -/
def matchesAll (p : Pattern α) (s : List α) : Bool :=
  (p.run (fun e => if e.rest.isEmpty then some () else none) ⟨none, s, 0, []⟩).isSome

/-- One pattern after the other. -/
def seq (ps : List (Pattern α)) : Pattern α :=
  ps.foldr .andThen .empty

/-- The first of several patterns that leads to a match; without any there is no match. -/
def choice : List (Pattern α) → Pattern α
  | [] => .item fun _ => false
  | [p] => p
  | p :: ps => .orElse p (choice ps)

/-- The pattern or, if need be, nothing. -/
def optional (p : Pattern α) : Pattern α :=
  .orElse p .empty

end Pattern

end SolutionAtlas
