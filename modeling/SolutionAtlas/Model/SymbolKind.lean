-- SUMMARY: Kinds of symbols and the access levels they are declared with.
import SolutionAtlas.Text.Lowercase
import SolutionAtlas.Text.Slice

/-!
# Kinds and access levels

Both are closed lists of names. A name given by a user is read without regard to case; access
levels may also be written as in source text, as `protected internal`.
-/

namespace SolutionAtlas

inductive SymbolKind where
  | nameSpace
  | classType
  | interfaceType
  | structType
  | enumType
  | recordType
  | delegateType
  | method
  | constructor
  | property
  | field
  | event
  | enumMember
  deriving Repr, DecidableEq

namespace SymbolKind

/-- Every kind, in the order in which kinds are listed. -/
def all : List SymbolKind :=
  [.nameSpace, .classType, .interfaceType, .structType, .enumType, .recordType, .delegateType,
    .method, .constructor, .property, .field, .event, .enumMember]

def name : SymbolKind → String
  | .nameSpace => "Namespace"
  | .classType => "Class"
  | .interfaceType => "Interface"
  | .structType => "Struct"
  | .enumType => "Enum"
  | .recordType => "Record"
  | .delegateType => "Delegate"
  | .method => "Method"
  | .constructor => "Constructor"
  | .property => "Property"
  | .field => "Field"
  | .event => "Event"
  | .enumMember => "EnumMember"

/-- The place of a kind in the list of kinds. -/
def rank (k : SymbolKind) : Nat :=
  all.idxOf k

/-- The kind of a given name, whatever its case and the blanks around it. -/
def read? (text : String) : Option SymbolKind :=
  all.find? fun k => Text.eqIgnoreCase k.name (Text.trim text)

/-- Kinds that are declared with members of their own, and delegates. -/
def isType : SymbolKind → Bool
  | .classType | .interfaceType | .structType | .enumType | .recordType | .delegateType => true
  | _ => false

/-- What the stable ids of symbols of this kind begin with. -/
def idLead : SymbolKind → String
  | .nameSpace => "N:"
  | .classType | .interfaceType | .structType | .enumType | .recordType | .delegateType => "T:"
  | .method | .constructor => "M:"
  | .property => "P:"
  | .field | .enumMember => "F:"
  | .event => "E:"

end SymbolKind

inductive Accessibility where
  | publicAccess
  | internalAccess
  | protectedAccess
  | protectedInternal
  | privateProtected
  | privateAccess
  deriving Repr, DecidableEq

namespace Accessibility

def all : List Accessibility :=
  [.publicAccess, .internalAccess, .protectedAccess, .protectedInternal, .privateProtected, .privateAccess]

def name : Accessibility → String
  | .publicAccess => "Public"
  | .internalAccess => "Internal"
  | .protectedAccess => "Protected"
  | .protectedInternal => "ProtectedInternal"
  | .privateProtected => "PrivateProtected"
  | .privateAccess => "Private"

/-- The level of a given name. Case, blanks and underscores do not count, and the two words of a
compound level may come in either order. -/
def read? (text : String) : Option Accessibility :=
  let kept := text.toList.filter fun c => !Text.isBlank c && c != '_'
  match Text.lowerAscii (String.ofList kept) with
  | "public" => some .publicAccess
  | "internal" => some .internalAccess
  | "protected" => some .protectedAccess
  | "protectedinternal" | "internalprotected" => some .protectedInternal
  | "privateprotected" | "protectedprivate" => some .privateProtected
  | "private" => some .privateAccess
  | _ => none

/-- The level that the modifiers of a declaration give, `none` when they name no level. -/
def ofModifiers? (modifiers : List String) : Option Accessibility :=
  let has := modifiers.contains
  if has "public" then some .publicAccess
  else if has "protected" && has "internal" then some .protectedInternal
  else if has "private" && has "protected" then some .privateProtected
  else if has "protected" then some .protectedAccess
  else if has "internal" || has "file" then some .internalAccess
  else if has "private" then some .privateAccess
  else none

end Accessibility

end SolutionAtlas
