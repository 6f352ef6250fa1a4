-- SUMMARY: Rules for running patterns: what each passes and when it fails, and how matches follow one another.
import Mathlib
import SolutionAtlas.Text.Pattern

/-!
# Running patterns

There is a rule for each pattern, told by what goes on behind it. A pattern that leaves a choice has two: it succeeds
if its first choice leads to an end, and it fails if none does.
-/

namespace SolutionAtlas.Pattern

variable {α β : Type}

/-- The cursor behind a stretch, with what follows it. -/
def Cursor.past (pl : Cursor α) (u v : List α) : Cursor α :=
  { pl with before := u.getLast?.or pl.before, rest := v, passed := pl.passed + u.length }

/-- A stretch and another behind it are one stretch. -/
theorem Cursor.past_past (pl : Cursor α) (u v w s : List α) : (pl.past u v).past w s = pl.past (u ++ w) s := by
  simp [past, Option.or_assoc, Nat.add_assoc]

/-! ## Rules -/

section Rules

variable {p : α → Bool} {k : Cursor α → Option β} {pl : Cursor α} {x : α} {u v : List α} {r : β}

theorem run_seq {a : Pattern α} {ps : List (Pattern α)} (hk : a.run ((seq ps).run k) pl = some r) :
    (seq (a :: ps)).run k pl = some r :=
  hk

theorem run_item (h : pl.rest = x :: v) (hx : p x = true) (hk : k (pl.past [x] v) = some r) :
    (item p).run k pl = some r := by
  rw [run, h]
  exact (if_pos hx).trans hk

theorem run_edge {q : Option α → Option α → Bool} (h : q pl.before pl.rest.head? = true) (hk : k pl = some r) :
    (edge q).run k pl = some r :=
  (if_pos h).trans hk

theorem runMost_of_all {groups : List (List α)} {before : Option α} {passed : Nat} (hu : ∀ x ∈ u, p x = true)
    (hv : v.head?.all (!p ·) = true) (hk : k ⟨u.getLast?.or before, v, passed + u.length, groups⟩ = some r) :
    runMost p k groups before passed (u ++ v) = some r := by
  induction u generalizing before passed with
  | nil =>
    cases v with
    | nil => exact hk
    | cons x v =>
      rw [List.nil_append, runMost, if_neg (by simpa using hv)]
      exact hk
  | cons x u ih =>
    obtain ⟨hx, hlater⟩ := List.forall_mem_cons.mp hu
    have hlast : u.getLast?.or (some x) = (x :: u).getLast?.or before := by
      rw [List.getLast?_cons]
      cases u.getLast? <;> rfl
    rw [List.cons_append, runMost, if_pos hx, ih hlater (by rwa [hlast, Nat.add_assoc, Nat.add_comm 1])]

/-- As many items as possible are passed when that leads to an end. -/
theorem run_most (h : pl.rest = u ++ v) (hu : ∀ x ∈ u, p x = true) (hv : v.head?.all (!p ·) = true)
    (hk : k (pl.past u v) = some r) : (most p).run k pl = some r := by
  rw [run, h]
  exact runMost_of_all hu hv hk

theorem runMost_eq_none {groups : List (List α)} {before : Option α} {passed : Nat} {s : List α}
    (hk : ∀ u v, s = u ++ v → (∀ x ∈ u, p x = true) → ∀ before passed, k ⟨before, v, passed, groups⟩ = none) :
    runMost p k groups before passed s = none := by
  induction s generalizing before passed with
  | nil => exact hk [] [] rfl (by simp) before passed
  | cons x s ih =>
    have hhere : k ⟨before, x :: s, passed, groups⟩ = none := hk [] (x :: s) rfl (by simp) before passed
    rw [runMost]
    split
    · rename_i hx
      rw [ih fun u v hsplit hu => hk (x :: u) v (by rw [hsplit]; rfl) (List.forall_mem_cons.mpr ⟨hx, hu⟩)]
      exact hhere
    · exact hhere

/-- A group reports the stretch that its pattern passes. -/
theorem run_group {a : Pattern α} (h : pl.rest = u ++ v)
    (ha : ∀ k : Cursor α → Option β, k (pl.past u v) = some r → a.run k pl = some r)
    (hk : k { pl.past u v with groups := u :: pl.groups } = some r) : (group a).run k pl = some r := by
  refine ha _ ?_
  have hstretch : pl.rest.take ((pl.past u v).passed - pl.passed) = u := by
    rw [h, Cursor.past, Nat.add_sub_cancel_left, List.take_left]
  rw [hstretch]
  exact hk

/-- A repeated item fails when no number of items leads to an end. -/
theorem run_most_eq_none
    (hk : ∀ u v, pl.rest = u ++ v → (∀ x ∈ u, p x = true) → ∀ before passed, k ⟨before, v, passed, pl.groups⟩ = none) :
    (most p).run k pl = none :=
  runMost_eq_none hk

end Rules

/-! ## Matches -/

section Matches

variable {p : Pattern α} {before : Option α} {x : α} {s : List α} {m : Cursor α}

theorem find?_of_matchAt? (h : p.matchAt? before s = some m) : p.find? before s = some m := by
  cases s with
  | nil => exact h
  | cons x s => rw [find?, h]

theorem findUpTo_of_matchAt? (h : p.matchAt? before s = some m) (limit : Nat) :
    p.findUpTo (limit + 1) before s = m :: p.findUpTo limit m.before m.rest := by
  rw [findUpTo, find?_of_matchAt? h]

/-- Where no match begins, the next item is looked at. -/
theorem findUpTo_cons (h : p.matchAt? before (x :: s) = none) (limit : Nat) :
    p.findUpTo limit before (x :: s) = p.findUpTo limit (some x) s := by
  cases limit with
  | zero => rfl
  | succ limit => rw [findUpTo, findUpTo, find?, h]

theorem findUpTo_nil (h : p.matchAt? before [] = none) (limit : Nat) : p.findUpTo limit before [] = [] := by
  cases limit with
  | zero => rfl
  | succ limit => rw [findUpTo, find?, h]

end Matches

end SolutionAtlas.Pattern
