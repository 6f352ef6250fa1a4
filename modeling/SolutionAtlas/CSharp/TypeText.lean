-- SUMMARY: Canonical spelling of types, and the parameter lists of ids and signatures.
import SolutionAtlas.Model.Symbol

/-!
# Type texts

`compact` spells a type in one way, however it is laid out in the source: no blanks except one
behind a comma and one between two words. Ids and signatures are built from such texts.
-/

namespace SolutionAtlas.CSharp

/-- Characters of the words of a type text. -/
def isTypeWordPart (c : Char) : Bool :=
  Text.isAlphanumeric c || c == '_' || c == '@'

/-- A space belongs between `prev` and `c`, where `gap` says that blanks stand between them. -/
def needsSpace (prev : Option Char) (gap : Bool) (c : Char) : Bool :=
  match prev with
  | none => false
  | some ',' => c != ',' && c != ']'
  | some p => gap && isTypeWordPart p && isTypeWordPart c

/-- Spells the rest of a type text, given the character before it and whether blanks stand between. -/
def compactFrom (prev : Option Char) (gap : Bool) : List Char → List Char
  | [] => []
  | c :: s =>
    if Text.isBlank c then compactFrom prev true s
    else if needsSpace prev gap c then ' ' :: c :: compactFrom (some c) false s
    else c :: compactFrom (some c) false s

/-- The canonical spelling of a type. -/
def compact (text : String) : String :=
  String.ofList (compactFrom none false text.toList)

/-- The canonical spelling of a base type, without the mark of the global namespace. -/
def normalizeTypeName (text : String) : String :=
  let t := (compact text).toList
  String.ofList ((Text.dropLead? "global::".toList t).getD t)

/-- The type is named as interfaces are: an `I` and then a capital. -/
def looksLikeInterface (name : String) : Bool :=
  match (simpleTypeName name).toList with
  | 'I' :: c :: _ => c.isUpper
  | _ => false

/-- The mark of the number of type parameters of a type in an id. -/
def aritySuffix (arity : Nat) : String :=
  if arity == 0 then "" else "\x60" ++ toString arity

/-- The mark of the number of type parameters of a method in an id. -/
def methodAritySuffix (arity : Nat) : String :=
  if arity == 0 then "" else "\x60\x60" ++ toString arity

/-- The type parameters in a signature. -/
def genericList (parameters : List String) : String :=
  if parameters.isEmpty then "" else "<" ++ ", ".intercalate parameters ++ ">"

/-- The type of a parameter in an id. -/
def idParameter (p : Parameter) : String :=
  let shown := (p.typeName.toList.filter (!Text.isBlank ·)).map fun c =>
    if c == '<' then '\x7b' else if c == '>' then '\x7d' else c
  let byReference := p.modifiers.any fun m => m == "ref" || m == "out" || m == "in"
  String.ofList (if byReference then shown ++ ['@'] else shown)

/-- The parameters in an id, empty when there are none. -/
def idParameterList (parameters : List Parameter) : String :=
  if parameters.isEmpty then "" else "(" ++ ",".intercalate (parameters.map idParameter) ++ ")"

/-- The parameters in a signature. -/
def displayParameterList (parameters : List Parameter) : String :=
  ", ".intercalate (parameters.map Parameter.displayType)

end SolutionAtlas.CSharp
