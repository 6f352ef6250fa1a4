-- SUMMARY: Filters that a user gives as text.
import SolutionAtlas.Query.Error

/-!
# Filters

A filter may be missing or blank, which lets everything pass. A name that is not known is an error.
-/

namespace SolutionAtlas

/-- The kind that must be met, if any. -/
def kindFilter (text : Option String) : Except QueryError (Option SymbolKind) :=
  match text.bind Text.nonBlank? with
  | none => .ok none
  | some value =>
    match SymbolKind.read? value with
    | some kind => .ok (some kind)
    | none => .error (.invalidArgument (.unknownKind value))

/-- The access level that must be met, if any. -/
def accessFilter (text : Option String) : Except QueryError (Option Accessibility) :=
  match text.bind Text.nonBlank? with
  | none => .ok none
  | some value =>
    match Accessibility.read? value with
    | some level => .ok (some level)
    | none => .error (.invalidArgument (.unknownAccessibility value))

/-- A value passes a filter. -/
def passes {α : Type} [DecidableEq α] (wanted : Option α) (x : α) : Bool :=
  match wanted with
  | none => true
  | some y => x = y

/-- A limit given by a user, or else a default, brought into a range that begins at one. -/
def limitWithin (limit : Option Nat) (default most : Nat) : Nat :=
  min (max (limit.getD default) 1) most

end SolutionAtlas
