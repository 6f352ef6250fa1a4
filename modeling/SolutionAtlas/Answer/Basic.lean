-- SUMMARY: The answers to queries over a loaded solution.
import SolutionAtlas.Model.Solution
import SolutionAtlas.Decimal.Shortest

/-!
# Answers

One type per kind of query. An answer holds copies of what it shows, so that it can be written with
paths of its own.
-/

namespace SolutionAtlas

structure SearchHit where
  symbolId : String
  name : String
  kind : SymbolKind
  signature : String
  accessibility : Accessibility
  summary : Option String
  location : Option Location
  score : Decimal
  deriving Repr, DecidableEq

structure SearchResults where
  query : String
  totalMatches : Nat
  results : List SearchHit
  deriving Repr, DecidableEq

/-- What is known of a type beyond its symbol. -/
structure TypeExtra where
  baseTypes : List String
  interfaces : List String
  isPartial : Bool
  isAbstract : Bool
  isSealed : Bool
  isStatic : Bool
  memberCount : Nat
  deriving Repr, DecidableEq

/-- What is known of a member beyond its symbol. -/
structure MemberExtra where
  returnType : Option String
  parameters : List Parameter
  isStatic : Bool
  isAsync : Bool
  isVirtual : Bool
  isOverride : Bool
  isAbstract : Bool
  containingType : Option String
  containingTypeId : Option String
  deriving Repr, DecidableEq

/-- A symbol is a type or a member of one. -/
inductive SymbolExtra where
  | type (extra : TypeExtra)
  | member (extra : MemberExtra)
  deriving Repr, DecidableEq

namespace SymbolExtra

def ofType (t : TypeSymbol) : SymbolExtra :=
  .type {
    baseTypes := t.baseTypes
    interfaces := t.interfaces
    isPartial := t.isPartial
    isAbstract := t.isAbstract
    isSealed := t.isSealed
    isStatic := t.isStatic
    memberCount := t.members.length }

/-- The extra of a member, with the type that holds it when that is known. -/
def ofMember (m : Member) (container : Option TypeSymbol) : SymbolExtra :=
  .member {
    returnType := m.returnType
    parameters := m.parameters
    isStatic := m.isStatic
    isAsync := m.isAsync
    isVirtual := m.isVirtual
    isOverride := m.isOverride
    isAbstract := m.isAbstract
    containingType := container.map (·.symbol.signature)
    containingTypeId := m.containingTypeId }

end SymbolExtra

structure SymbolDetail where
  symbol : Symbol
  project : Option String
  nameSpace : Option String
  extra : SymbolExtra
  deriving Repr, DecidableEq

structure TypeMembers where
  typeId : String
  typeName : String
  totalCount : Nat
  filteredCount : Nat
  members : List Member
  deriving Repr, DecidableEq

/-- Where an answer about inheritance comes from. -/
inductive HierarchySource where
  | live
  | index
  deriving Repr, DecidableEq

def HierarchySource.name : HierarchySource → String
  | .live => "Live"
  | .index => "Index"

/-- A mention of a symbol that need not be known in full. -/
structure SymbolRef where
  id : Option String
  name : String
  kind : Option SymbolKind
  signature : Option String
  location : Option Location
  deriving Repr, DecidableEq

namespace SymbolRef

def ofSymbol (s : Symbol) : SymbolRef :=
  { id := s.uniqueId
    name := s.name
    kind := some s.kind
    signature := some s.signature
    location := s.locations.head? }

/-- What tells two mentioned symbols apart. -/
def identity (r : SymbolRef) : String :=
  (r.id.or r.signature).getD r.name

end SymbolRef

structure TypeHierarchy where
  typeId : String
  name : String
  kind : SymbolKind
  baseTypes : List String
  baseChain : List String
  interfaces : List String
  derivedTypes : List SymbolRef
  source : HierarchySource
  deriving Repr, DecidableEq

structure InterfaceImplementations where
  interfaceId : String
  name : String
  implementations : List SymbolRef
  source : HierarchySource
  deriving Repr, DecidableEq

/-- A caller of a symbol with the places it calls from. -/
structure Caller where
  caller : SymbolRef
  callSites : List Location
  deriving Repr, DecidableEq

structure Callers where
  symbolId : String
  name : String
  callers : List Caller
  truncated : Bool
  deriving Repr, DecidableEq

inductive CalleeKind where
  | invocation
  | construction
  deriving Repr, DecidableEq

def CalleeKind.name : CalleeKind → String
  | .invocation => "Invocation"
  | .construction => "Construction"

structure Callee where
  callee : SymbolRef
  kind : CalleeKind
  deriving Repr, DecidableEq

structure Callees where
  symbolId : String
  name : String
  callees : List Callee
  truncated : Bool
  deriving Repr, DecidableEq

inductive UsageKind where
  | read
  | write
  | implicit
  deriving Repr, DecidableEq

def UsageKind.name : UsageKind → String
  | .read => "Read"
  | .write => "Write"
  | .implicit => "Implicit"

structure Usage where
  filePath : String
  line : Nat
  column : Nat
  snippet : String
  kind : UsageKind
  deriving Repr, DecidableEq

structure Usages where
  symbolId : String
  name : String
  totalFound : Nat
  usages : List Usage
  truncated : Bool
  deriving Repr, DecidableEq

inductive DependencyNodeKind where
  | project
  | package
  deriving Repr, DecidableEq

def DependencyNodeKind.name : DependencyNodeKind → String
  | .project => "Project"
  | .package => "Package"

structure DependencyNode where
  id : String
  name : String
  kind : DependencyNodeKind
  version : Option String
  deriving Repr, DecidableEq

inductive DependencyEdgeKind where
  | projectReference
  | packageReference
  deriving Repr, DecidableEq

def DependencyEdgeKind.name : DependencyEdgeKind → String
  | .projectReference => "ProjectReference"
  | .packageReference => "PackageReference"

structure DependencyEdge where
  source : String
  target : String
  kind : DependencyEdgeKind
  deriving Repr, DecidableEq

structure DependencyGraph where
  rootProject : Option String
  depth : Nat
  nodes : List DependencyNode
  edges : List DependencyEdge
  deriving Repr, DecidableEq

/-- The first node of a given name. -/
def DependencyGraph.nodeNamed? (g : DependencyGraph) (name : String) : Option DependencyNode :=
  g.nodes.find? (·.name == name)

structure TypeSummary where
  id : Option String
  name : String
  kind : SymbolKind
  nameSpace : String
  signature : String
  accessibility : Accessibility
  relativePath : String
  lineNumber : Nat
  memberCount : Nat
  deriving Repr, DecidableEq

def TypeSummary.ofType (space : String) (t : TypeSymbol) : TypeSummary :=
  { id := t.symbol.uniqueId
    name := t.symbol.name
    kind := t.symbol.kind
    nameSpace := space
    signature := t.symbol.signature
    accessibility := t.symbol.accessibility
    relativePath := t.relativePath
    lineNumber := t.lineNumber
    memberCount := t.members.length }

structure NamespaceTypes where
  nameSpace : String
  includeSubNamespaces : Bool
  types : List TypeSummary
  deriving Repr, DecidableEq

structure FileMetadata where
  file : FileEntry
  projectName : String
  types : List TypeSummary
  deriving Repr, DecidableEq

structure RecentFiles where
  totalFiles : Nat
  files : List FileEntry
  deriving Repr, DecidableEq

structure ProjectSummary where
  name : String
  projectFilePath : String
  targetFrameworks : List String
  statistics : Statistics
  deriving Repr, DecidableEq

structure ProjectMetadata where
  name : String
  projectFilePath : String
  rootDirectories : List String
  targetFrameworks : List String
  packageReferences : List PackageReference
  projectReferences : List String
  namespaces : List String
  statistics : Statistics
  conventions : Conventions
  deriving Repr, DecidableEq

structure SolutionOverview where
  name : String
  path : String
  projects : List ProjectSummary
  statistics : Statistics
  conventions : Conventions
  deriving Repr, DecidableEq

structure ConventionsReport where
  projectName : Option String
  conventions : Conventions
  deriving Repr, DecidableEq

/-- What went wrong with a request: a code, a text, and perhaps a hint. -/
structure ErrorEnvelope where
  error : String
  code : String
  hint : Option String := none
  deriving Repr, DecidableEq

end SolutionAtlas
