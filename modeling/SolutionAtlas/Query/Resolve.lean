-- SUMMARY: The symbol that a user's text stands for.
import SolutionAtlas.Query.Loaded

/-!
# Resolution

A text stands for the symbol with that key, or else for the only one with that name, whatever its
case, or else for the first one with exactly that signature. A name that several symbols bear stands
for none of them. Blanks around the text do not count.
-/

namespace SolutionAtlas

/-- The symbols that a query is about. -/
inductive Target where
  | any
  | type
  deriving Repr, DecidableEq

namespace Target

def accepts : Target → IndexEntry → Bool
  | .any, _ => true
  | .type, e => e.isType

def sought : Target → Sought
  | .any => .symbol
  | .type => .type

end Target

namespace LoadedSolution

/-- The entry that a text without blanks around it stands for. -/
def lookUp (l : LoadedSolution) (target : Target) (wanted : String) : Except QueryError IndexEntry :=
  match (l.index.get? wanted).filter target.accepts with
  | some e => .ok e
  | none =>
    match (l.index.byNameOf wanted).filter target.accepts with
    | [e] => .ok e
    | [] =>
      match l.index.snapshot.find? fun e => target.accepts e && e.symbol.signature == wanted with
      | some e => .ok e
      | none => .error (.notFound target.sought wanted .searchSymbols)
    | several => .error (.notFound target.sought wanted (.ambiguous (several.map (·.key))))

/-- The entry that a text stands for. -/
def resolve (l : LoadedSolution) (target : Target) (raw : String) : Except QueryError IndexEntry :=
  match Text.nonBlank? raw with
  | some wanted => l.lookUp target wanted
  | none => .error (.invalidArgument .emptySymbolId)

/-- A symbol that an engine is asked about. -/
structure LiveTarget where
  key : String
  name : String
  deriving Repr, DecidableEq

/-- The symbol that a text stands for, of which only the engine may know. -/
def resolveLive (l : LoadedSolution) (engine : Engine) (raw : String) :
    Except QueryError LiveTarget :=
  match l.resolve .any raw with
  | .ok e => .ok ⟨e.key, e.symbol.name⟩
  | .error (.notFound ..) =>
    match engine.resolve (Text.trim raw) with
    | .error e => .error (.ofEngine e)
    | .ok (some r) => .ok ⟨r.identity, r.name⟩
    | .ok none => .error (.notFound .symbol (Text.trim raw) .searchSymbols)
  | .error e => .error e

end LoadedSolution

end SolutionAtlas
