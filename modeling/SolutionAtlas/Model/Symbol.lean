-- SUMMARY: Symbols of a solution: locations, parameters, members, types and namespaces.
import SolutionAtlas.Model.SymbolKind

/-!
# Symbols

What is known about a declared symbol. A symbol may be declared in several places, as a partial
type is; the declarations are merged into one symbol with all their locations.
-/

namespace SolutionAtlas

/-- The name of the namespace that holds what is declared outside every namespace. -/
def globalNamespace : String := "global"

/-- A part of a file. Lines and columns count from one. -/
structure Location where
  filePath : String
  startLine : Nat
  startColumn : Nat
  endLine : Nat
  endColumn : Nat
  deriving Repr, DecidableEq

/-- What types and members have in common. -/
structure Symbol where
  uniqueId : Option String
  name : String
  signature : String
  kind : SymbolKind
  accessibility : Accessibility
  attributes : List String
  summary : Option String
  locations : List Location
  deriving Repr, DecidableEq

namespace Symbol

/-- What a symbol is known by: its stable id, or its signature when it has none. -/
def key (s : Symbol) : String :=
  s.uniqueId.getD s.signature

/-- The symbol has a location in the file. -/
def isDeclaredIn (s : Symbol) (file : String) : Bool :=
  s.locations.any (·.filePath == file)

end Symbol

structure Parameter where
  name : String
  typeName : String
  defaultValue : Option String
  modifiers : List String
  deriving Repr, DecidableEq

/-- The type of a parameter with its modifiers, as in `ref int`. -/
def Parameter.displayType (p : Parameter) : String :=
  if p.modifiers.isEmpty then p.typeName else " ".intercalate p.modifiers ++ " " ++ p.typeName

structure Member where
  symbol : Symbol
  isStatic : Bool
  isAsync : Bool
  isVirtual : Bool
  isOverride : Bool
  isAbstract : Bool
  returnType : Option String
  parameters : List Parameter
  comment : Option String
  containingTypeId : Option String
  deriving Repr, DecidableEq

structure TypeSymbol where
  symbol : Symbol
  members : List Member
  baseTypes : List String
  interfaces : List String
  isPartial : Bool
  isAbstract : Bool
  isSealed : Bool
  isStatic : Bool
  filePath : String
  relativePath : String
  lineNumber : Nat
  deriving Repr, DecidableEq

/-- The elements of both lists, each new one of the second behind the first. -/
def unionInto {α : Type} [DecidableEq α] (xs ys : List α) : List α :=
  ys.foldl (fun acc y => if acc.contains y then acc else acc ++ [y]) xs

/-- The members of both lists, where of several members with one key the first stays. -/
def unionMembers (xs ys : List Member) : List Member :=
  ys.foldl (fun acc y => if acc.any (·.symbol.key == y.symbol.key) then acc else acc ++ [y]) xs

namespace TypeSymbol

/-- Merges another declaration of the same type into the first one. -/
def merge (t other : TypeSymbol) : TypeSymbol :=
  { t with
    symbol := { t.symbol with
      locations := unionInto t.symbol.locations other.symbol.locations
      attributes := unionInto t.symbol.attributes other.symbol.attributes
      summary := t.symbol.summary.or other.symbol.summary }
    isPartial := true
    isAbstract := t.isAbstract || other.isAbstract
    isSealed := t.isSealed || other.isSealed
    isStatic := t.isStatic || other.isStatic
    baseTypes := unionInto t.baseTypes other.baseTypes
    interfaces := unionInto t.interfaces other.interfaces
    members := unionMembers t.members other.members }

end TypeSymbol

structure Namespace where
  name : String
  types : List TypeSymbol
  filePath : String
  deriving Repr, DecidableEq

-- ---------------------------------------------------------------------------
-- Names of types
-- ---------------------------------------------------------------------------

/-- The name of a type without its type arguments, as `App.Repo` of `App.Repo<T>`. -/
def stripGenericSuffix (name : String) : String :=
  String.ofList (Text.trimChars (Text.beforeFirst '<' name.toList))

/-- The last segment of a dotted name without type arguments, as `IRepo` of `App.IRepo<User>`. -/
def simpleTypeName (name : String) : String :=
  String.ofList (Text.trimChars (Text.afterLast '.' (stripGenericSuffix name).toList))

/-- The name of a type with its namespace and without type arguments. -/
def TypeSymbol.fullName (t : TypeSymbol) : String :=
  stripGenericSuffix t.symbol.signature

end SolutionAtlas
