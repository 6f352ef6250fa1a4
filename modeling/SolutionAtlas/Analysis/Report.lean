-- SUMMARY: What an analysis did, and how it can fail.
import SolutionAtlas.Json.Record

/-!
# Reports and failures

A report counts what happened to the documents of one pass: each is analyzed, reused, skipped or
failed. A pass that comes to nothing says why.
-/

namespace SolutionAtlas

structure AnalysisReport where
  projects : Nat := 0
  analyzed : Nat := 0
  /-- Documents whose earlier result still holds. -/
  reused : Nat := 0
  failed : Nat := 0
  /-- Documents that are generated or excluded. -/
  skipped : Nat := 0
  elapsedMs : Nat := 0
  errors : List String := []
  deriving Repr, DecidableEq

namespace AnalysisReport

def addFailure (r : AnalysisReport) (error : String) : AnalysisReport :=
  { r with failed := r.failed + 1, errors := r.errors ++ [error] }

/-- Adds what another report counts; the time is that of the whole. -/
def absorb (r s : AnalysisReport) : AnalysisReport :=
  { r with
    projects := r.projects + s.projects
    analyzed := r.analyzed + s.analyzed
    reused := r.reused + s.reused
    failed := r.failed + s.failed
    skipped := r.skipped + s.skipped
    errors := r.errors ++ s.errors }

end AnalysisReport

open Json in
instance : JsonForm AnalysisReport where
  toJson r := record [
    member "projects" r.projects, member "documents_analyzed" r.analyzed,
    member "documents_reused" r.reused, member "documents_failed" r.failed,
    member "documents_skipped" r.skipped, member "elapsed_ms" r.elapsedMs,
    memberIfAny "errors" r.errors]
  ofJson? j := do
    let f ← fields? ["projects", "documents_analyzed", "documents_reused", "documents_failed",
      "documents_skipped", "elapsed_ms", "errors"] j
    return {
      projects := ← f.required "projects"
      analyzed := ← f.required "documents_analyzed"
      reused := ← f.required "documents_reused"
      failed := ← f.required "documents_failed"
      skipped := ← f.required "documents_skipped"
      elapsedMs := ← f.required "elapsed_ms"
      errors := ← f.orElse "errors" [] }

/-- Why an analysis, or something it rests on, failed. -/
inductive AnalysisError where
  | io (text : String)
  | invalidPath (text : String)
  | config (text : String)
  | provider (text : String)
  | cancelled
  deriving Repr, DecidableEq

namespace AnalysisError

/-- The name of the kind of failure. -/
def kind : AnalysisError → String
  | .io _ => "Io"
  | .invalidPath _ => "InvalidPath"
  | .config _ => "Config"
  | .provider _ => "Provider"
  | .cancelled => "Cancelled"

def message : AnalysisError → String
  | .io text => "IO error: " ++ text
  | .invalidPath text => "Invalid path: " ++ text
  | .config text => "Invalid configuration: " ++ text
  | .provider text => "Source provider error: " ++ text
  | .cancelled => "Analysis cancelled"

def isCancelled : AnalysisError → Bool
  | .cancelled => true
  | _ => false

end AnalysisError

end SolutionAtlas
