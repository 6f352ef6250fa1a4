-- SUMMARY: The settings file of a solution.
import SolutionAtlas.Analysis.Config
import SolutionAtlas.Disk.Basic

/-!
# Settings files

The settings of a solution are those of the file in its directory, or the defaults when there is no
file, with what the environment overrides.
-/

namespace SolutionAtlas.AnalyzerConfig

/-- The settings of the file in a directory. -/
def inDirectory (d : Disk) (directory : String) : Except AnalysisError AnalyzerConfig :=
  let path := Path.join directory configFileName
  if d.isFile path then
    match d.readText path with
    | .error e => .error (.io e.message)
    | .ok text => read text
  else .ok {}

/-- The settings for a directory under an environment. -/
def load (environment : String → Option String) (d : Disk) (directory : String) :
    Except AnalysisError AnalyzerConfig :=
  (inDirectory d directory).map (override environment)

/-- The directory whose settings hold for a solution: its own, or that of its file. -/
def directoryFor (d : Disk) (path : String) : String :=
  if d.isFolder path then path else (Path.parent? path).getD path

end SolutionAtlas.AnalyzerConfig
