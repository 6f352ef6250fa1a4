-- SUMMARY: Conventions of a project or solution and how they combine.

/-!
# Conventions

What is known of the habits of a project: its namespaces, its compiler switches, its tests and its
documents. The conventions of a solution are those of its projects, merged in order.
-/

namespace SolutionAtlas

/-- How namespaces are declared: for a whole file, in braces, or both. -/
inductive NamespaceStyle where
  | fileScoped
  | blockScoped
  | mixed
  deriving Repr, DecidableEq

namespace NamespaceStyle

def name : NamespaceStyle → String
  | .fileScoped => "FileScoped"
  | .blockScoped => "BlockScoped"
  | .mixed => "Mixed"

/-- The style that shows in the numbers of namespaces of both kinds. -/
def ofCounts? (fileScoped block : Nat) : Option NamespaceStyle :=
  if fileScoped == 0 && block == 0 then none
  else if block == 0 then some .fileScoped
  else if fileScoped == 0 then some .blockScoped
  else some .mixed

/-- The style of two parts together. -/
def merge? : Option NamespaceStyle → Option NamespaceStyle → Option NamespaceStyle
  | none, s => s
  | s, none => s
  | some a, some b => if a = b then some a else some .mixed

end NamespaceStyle

structure Conventions where
  hasEditorConfig : Bool := false
  editorConfigPath : Option String := none
  nullableEnabled : Bool := false
  implicitUsingsEnabled : Bool := false
  defaultNamespace : Option String := none
  namespaceStyle : Option NamespaceStyle := none
  testFramework : Option String := none
  documentationFiles : List String := []
  deriving Repr, DecidableEq

namespace Conventions

/-- The longer of two names, in bytes; of equally long ones the first. -/
def longerName? : Option String → Option String → Option String
  | none, b => b
  | some a, none => some a
  | some a, some b => if a.utf8ByteSize < b.utf8ByteSize then some b else some a

/-- The conventions of two parts together. -/
def merge (a b : Conventions) : Conventions :=
  { hasEditorConfig := a.hasEditorConfig || b.hasEditorConfig
    editorConfigPath :=
      if !a.hasEditorConfig && b.hasEditorConfig then b.editorConfigPath else a.editorConfigPath
    nullableEnabled := a.nullableEnabled || b.nullableEnabled
    implicitUsingsEnabled := a.implicitUsingsEnabled || b.implicitUsingsEnabled
    defaultNamespace := longerName? a.defaultNamespace b.defaultNamespace
    namespaceStyle := NamespaceStyle.merge? a.namespaceStyle b.namespaceStyle
    testFramework := a.testFramework.or b.testFramework
    documentationFiles := b.documentationFiles.foldl
      (fun acc d => if acc.contains d then acc else acc ++ [d]) a.documentationFiles }

end Conventions

end SolutionAtlas
