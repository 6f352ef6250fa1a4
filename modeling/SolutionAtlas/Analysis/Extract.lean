-- SUMMARY: The namespaces that one document contributes to the model.
import SolutionAtlas.CSharp.Outline

/-!
# Extraction

Turns the outline of a document into namespaces of the model. Private members are left out unless
asked for, and so are methods that only hand their arguments on.
-/

namespace SolutionAtlas

/-- Which members enter the model. -/
structure ExtractOptions where
  includePrivate : Bool
  includeForwarding : Bool
  deriving Repr, DecidableEq

/-- The paths of a document: its own, and the one shown for it. -/
structure DocumentPaths where
  filePath : String
  relativePath : String
  deriving Repr, DecidableEq

namespace CSharp

/-- The location of a span in a file. -/
def Span.location (s : Span) (file : String) : Location :=
  ⟨file, s.startLine, s.startColumn, s.endLine, s.endColumn⟩

namespace OutlineMember

/-- The member enters the model. -/
def isEligible (m : OutlineMember) (options : ExtractOptions) : Bool :=
  (options.includePrivate || m.accessibility != .privateAccess) &&
    (options.includeForwarding || !(m.kind == .method && m.isForwarding))

/-- The member in the model, inside the type of a given id. -/
def toMember (m : OutlineMember) (typeId : String) (inInterface : Bool) (file : String) : Member :=
  let has := m.modifiers.contains
  { symbol := {
      uniqueId := some m.id
      name := m.name
      signature := m.signature
      kind := m.kind
      accessibility := m.accessibility
      attributes := m.attributes
      summary := m.summary
      locations := [m.span.location file] }
    isStatic := has "static" || has "const"
    isAsync := has "async"
    isVirtual := has "virtual"
    isOverride := has "override"
    isAbstract := has "abstract" || (inInterface && !m.hasBody && !has "static")
    returnType := m.returnType
    parameters := m.parameters
    comment := m.doc
    containingTypeId := some typeId }

end OutlineMember

/-- The type in the model. -/
def OutlineType.toType (t : OutlineType) (paths : DocumentPaths) (options : ExtractOptions) :
    TypeSymbol :=
  let has := t.modifiers.contains
  { symbol := {
      uniqueId := some t.id
      name := t.name
      signature := t.signature
      kind := t.kind
      accessibility := t.accessibility
      attributes := t.attributes
      summary := t.summary
      locations := [t.span.location paths.filePath] }
    members := (t.members.filter (·.isEligible options)).map fun m =>
      m.toMember t.id (t.kind == .interfaceType) paths.filePath
    baseTypes := t.baseTypes
    interfaces := t.interfaces
    isPartial := has "partial"
    isAbstract := has "abstract"
    isSealed := has "sealed"
    isStatic := has "static"
    filePath := paths.filePath
    relativePath := paths.relativePath
    lineNumber := t.span.startLine }

/-- The namespaces of a document in the model. -/
def Outline.toNamespaces (o : Outline) (paths : DocumentPaths) (options : ExtractOptions) :
    List Namespace :=
  o.namespaces.map fun n =>
    { name := n.name
      types := n.types.map fun t => t.toType paths options
      filePath := paths.filePath }

end CSharp

end SolutionAtlas
