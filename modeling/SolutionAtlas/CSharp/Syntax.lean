-- SUMMARY: The syntax of the C# declarations in a document, as far as an outline needs it.
import SolutionAtlas.CSharp.Token

/-!
# Declarations

A document is a list of items: what stands side by side at one level, comments included. Types and
block namespaces hold a list of items of their own. Texts are kept as they are written.
-/

namespace SolutionAtlas.CSharp

/-- The part of a text that a declaration covers. Lines and columns count from one, columns in
bytes; the end is the position behind the last character. -/
structure Span where
  startLine : Nat
  startColumn : Nat
  endLine : Nat
  endColumn : Nat
  deriving Repr, DecidableEq

/-- The span between two positions. -/
def Span.between (a b : Position) : Span :=
  ⟨a.line + 1, a.column + 1, b.line + 1, b.column + 1⟩

/-- An expression, as far as it shows whether it hands its arguments on. -/
inductive Expression where
  | name (text : String)
  | await (operand : Expression)
  | call (arguments : List Expression)
  | other

/-- The body of a method, or of a property that is computed. -/
inductive Body where
  /-- Statements in braces; `sole` is the expression that the only statement returns or evaluates. -/
  | block (sole : Option Expression)
  | arrow (value : Expression)

structure ParameterSyntax where
  modifiers : List String
  typeText : String
  name : String
  /-- What is written behind the name. -/
  behind : String
  span : Span

/-- A declared variable of a field declaration. -/
structure Declarator where
  name : String
  span : Span

inductive MemberShape where
  | method (returns name : String) (typeParameters : List String)
      (parameters : List ParameterSyntax) (body : Option Body)
  | constructor (name : String) (parameters : List ParameterSyntax) (body : Option Body)
  | property (typeText name : String) (body : Option Body)
  | event (typeText name : String)
  | fields (typeText : String) (declarators : List Declarator)
  | eventFields (typeText : String) (declarators : List Declarator)
  | enumMember (name : String)

structure MemberSyntax where
  attributes : List String
  modifiers : List String
  shape : MemberShape
  span : Span

/-- The keyword a type is declared with. -/
inductive TypeForm where
  | classForm
  | interfaceForm
  | structForm
  | enumForm
  | recordForm
  | delegateForm
  deriving Repr, DecidableEq

/-- A type declaration without its body. -/
structure TypeHead where
  form : TypeForm
  attributes : List String
  modifiers : List String
  name : String
  typeParameters : List String
  /-- The parameters written behind the name. -/
  parameters : List ParameterSyntax
  bases : List String
  span : Span

inductive Item where
  | comment (text : String)
  /-- A namespace with a body in braces. -/
  | nameSpace (name : String) (body : List Item)
  /-- A namespace declared for the rest of the document. What it holds follows it, or stands in a body
  of its own. -/
  | fileNameSpace (name : String) (body : List Item)
  | type (head : TypeHead) (body : List Item)
  | member (syn : MemberSyntax)
  | other

end SolutionAtlas.CSharp
