-- SUMMARY: Where projects, documents and semantic engines come from.
import SolutionAtlas.Analysis.Report
import SolutionAtlas.Answer.Codec
import SolutionAtlas.CSharp.Outline
import SolutionAtlas.Disk.Scan

/-!
# Providers and engines

A provider lists the files of a project, parses documents and may open an engine, which answers
questions that the source text alone does not. Every call may fail, and while a document is parsed or
an engine opened the caller may give up.
-/

namespace SolutionAtlas

/-- A project as a provider lists it. -/
structure ProjectSource where
  name : String
  manifestPath : String
  manifestText : String
  rootDirs : List String
  /-- The source documents. -/
  documents : List String
  /-- All other files. -/
  otherFiles : List String
  deriving Repr, DecidableEq

/-- A reference to a symbol. -/
structure ReferenceHit where
  location : Location
  /-- The source line, when the engine has it. -/
  snippet : Option String
  isWrite : Bool
  isImplicit : Bool
  deriving Repr, DecidableEq

/-- What a body does with another symbol. -/
inductive BodyOperation where
  | invocation (callee : SymbolRef)
  | creation (callee : SymbolRef)
  deriving Repr, DecidableEq

/-- The answers of a semantic engine, by symbol ids. -/
structure Engine where
  resolve : String → Except AnalysisError (Option SymbolRef)
  derivedTypes : String → Except AnalysisError (List SymbolRef)
  implementations : String → Except AnalysisError (List SymbolRef)
  callers : String → Except AnalysisError (List Caller)
  references : String → Except AnalysisError (List ReferenceHit)
  /-- The operations of a body, in source order. -/
  operations : String → Except AnalysisError (List BodyOperation)

/-- The result of a call during which the caller may give up. -/
structure Attempt (α : Type) where
  result : Except AnalysisError α
  givesUp : Bool := false

structure Provider where
  loadProject : Disk → String → Except AnalysisError ProjectSource
  /-- Parses a document, given its path and its text. -/
  parseDocument : String → String → Attempt CSharp.Outline
  /-- Opens an engine for a solution; not every provider has one. -/
  openEngine : String → Attempt (Option Engine)

namespace Provider

/-- Lists the files that a walk finds below the directory of a manifest. -/
def loadBy (walk : Scan.Walk) (d : Disk) (manifest : String) : Except AnalysisError ProjectSource := do
  match d.readText manifest with
  | .error e => throw (.provider (manifest ++ ": " ++ e.message))
  | .ok text =>
    match Path.parent? manifest with
    | none => throw (.invalidPath manifest)
    | some root =>
      let (documents, others) := (Scan.pathsBy walk d false root).partition (Path.hasExtension · "cs")
      return ⟨Path.fileStem manifest, manifest, text, [root], documents, others⟩

/-- Lists the files below the directory of a manifest. -/
def loadFromDisk (d : Disk) (manifest : String) : Except AnalysisError ProjectSource :=
  loadBy Scan.shownFiles d manifest

/-- The provider that knows the disk and the syntax, and no engine. -/
def workspace : Provider where
  loadProject := loadFromDisk
  parseDocument _ text := ⟨.ok (CSharp.Outline.ofSource text), false⟩
  openEngine _ := ⟨.ok none, false⟩

end Provider

end SolutionAtlas
