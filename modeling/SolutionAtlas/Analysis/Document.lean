-- SUMMARY: Analyzed documents, and the namespaces they have together.
import SolutionAtlas.Analysis.Extract
import SolutionAtlas.Table

/-!
# Documents

The result of analyzing a document holds as long as its time of change does. The namespaces of a
project are those of its documents: of one name there is one, and declarations of one type are merged
where the first of them stands.
-/

namespace SolutionAtlas

/-- A document that is to be analyzed. -/
structure DocumentJob where
  path : String
  /-- The path from the root of the project. -/
  relativePath : String
  modifiedMs : Nat
  deriving Repr, DecidableEq

/-- The result of analyzing a document. -/
structure AnalyzedDocument where
  path : String
  modifiedMs : Nat
  relativePath : String
  namespaces : List Namespace := []
  namespaceLiterals : List String := []
  fileScopedNamespaces : Nat := 0
  blockNamespaces : Nat := 0
  lineCount : Nat := 0
  autoGenerated : Bool := false
  deriving Repr, DecidableEq

/-- The result for an outline; nothing enters the model from a document that a tool wrote. -/
def AnalyzedDocument.ofOutline (job : DocumentJob) (o : CSharp.Outline) (options : ExtractOptions) :
    AnalyzedDocument :=
  if o.autoGenerated then
    { path := job.path
      modifiedMs := job.modifiedMs
      relativePath := job.relativePath
      lineCount := o.lineCount
      autoGenerated := true }
  else
    { path := job.path
      modifiedMs := job.modifiedMs
      relativePath := job.relativePath
      namespaces := o.toNamespaces ⟨job.path, job.relativePath⟩ options
      namespaceLiterals := o.namespaceLiterals
      fileScopedNamespaces := o.fileScopedNamespaces
      blockNamespaces := o.blockNamespaces
      lineCount := o.lineCount }

-- ---------------------------------------------------------------------------
-- Merging
-- ---------------------------------------------------------------------------

/-- The namespaces of some documents, and the keys of the types that are declared more than once. -/
structure MergedNamespaces where
  namespaces : List Namespace := []
  repeated : List String := []
  deriving Repr, DecidableEq

/-- Namespaces as they are merged, with the places where they and their types stand. -/
structure NamespaceMerge where
  merged : MergedNamespaces := {}
  /-- The places of the namespaces, by their names. -/
  positions : Table Nat := []
  /-- The places of the types, by their keys: that of the namespace, and that in the namespace. -/
  typeSlots : Table (Nat × Nat) := []
  deriving Repr, DecidableEq

namespace NamespaceMerge

/-- Makes sure of a namespace, and gives its place. -/
def placeOf (m : NamespaceMerge) (n : Namespace) : Nat × NamespaceMerge :=
  match m.positions.get? n.name with
  | some i => (i, m)
  | none =>
    let i := m.merged.namespaces.length
    (i, { m with
      merged.namespaces := m.merged.namespaces ++ [{ n with types := [] }]
      positions := m.positions.insert n.name i })

/-- Merges a declaration into the type in a slot. -/
def mergeInto (slot : Nat × Nat) (m : NamespaceMerge) (t : TypeSymbol) : NamespaceMerge :=
  { m with
    merged.namespaces := m.merged.namespaces.modify slot.1 fun n =>
      { n with types := n.types.modify slot.2 (·.merge t) }
    merged.repeated :=
      if m.merged.repeated.contains t.symbol.key then m.merged.repeated
      else m.merged.repeated ++ [t.symbol.key] }

/-- Puts a type behind the others of the namespace in a place. -/
def append (i : Nat) (m : NamespaceMerge) (t : TypeSymbol) : NamespaceMerge :=
  { m with
    merged.namespaces := m.merged.namespaces.modify i fun n => { n with types := n.types ++ [t] }
    typeSlots := m.typeSlots.insert t.symbol.key
      (i, ((m.merged.namespaces[i]?).map (·.types.length)).getD 0) }

def addType (i : Nat) (m : NamespaceMerge) (t : TypeSymbol) : NamespaceMerge :=
  match m.typeSlots.get? t.symbol.key with
  | some slot => m.mergeInto slot t
  | none => m.append i t

def add (m : NamespaceMerge) (n : Namespace) : NamespaceMerge :=
  let (i, m) := m.placeOf n
  n.types.foldl (addType i) m

end NamespaceMerge

/-- The namespaces of some documents together. -/
def MergedNamespaces.ofDocuments (documents : List AnalyzedDocument) : MergedNamespaces :=
  ((documents.flatMap (·.namespaces)).foldl NamespaceMerge.add {}).merged

end SolutionAtlas
