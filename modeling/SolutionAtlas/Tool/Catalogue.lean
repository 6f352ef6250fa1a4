-- SUMMARY: The tools with their names, descriptions and arguments.
import SolutionAtlas.Tool.Argument

/-!
# Catalogue

Every tool that the server offers, and the texts by which agents choose among them.
-/

namespace SolutionAtlas

inductive Tool where
  | loadSolution
  | getSolutionInfo
  | getProjectMetadata
  | getFileTree
  | getFileMetadata
  | detectConventions
  | getRecentlyModifiedFiles
  | searchSymbols
  | getSymbolDetail
  | getTypeMembers
  | getTypeHierarchy
  | getInterfaceImplementations
  | getCallers
  | getCallees
  | getUsages
  | getDependencyGraph
  | getNamespaceTypes
  deriving Repr, DecidableEq

namespace Tool

/-- Every tool, in the order in which they are listed. -/
def all : List Tool :=
  [.loadSolution, .getSolutionInfo, .getProjectMetadata, .getFileTree, .getFileMetadata,
    .detectConventions, .getRecentlyModifiedFiles, .searchSymbols, .getSymbolDetail, .getTypeMembers,
    .getTypeHierarchy, .getInterfaceImplementations, .getCallers, .getCallees, .getUsages,
    .getDependencyGraph, .getNamespaceTypes]

def name : Tool → String
  | .loadSolution => "load_solution"
  | .getSolutionInfo => "get_solution_info"
  | .getProjectMetadata => "get_project_metadata"
  | .getFileTree => "get_file_tree"
  | .getFileMetadata => "get_file_metadata"
  | .detectConventions => "detect_conventions"
  | .getRecentlyModifiedFiles => "get_recently_modified_files"
  | .searchSymbols => "search_symbols"
  | .getSymbolDetail => "get_symbol_detail"
  | .getTypeMembers => "get_type_members"
  | .getTypeHierarchy => "get_type_hierarchy"
  | .getInterfaceImplementations => "get_interface_implementations"
  | .getCallers => "get_callers"
  | .getCallees => "get_callees"
  | .getUsages => "get_usages"
  | .getDependencyGraph => "get_dependency_graph"
  | .getNamespaceTypes => "get_namespace_types"

/-- The tool of a given name. -/
def named? (name : String) : Option Tool :=
  all.find? (·.name == name)

def description : Tool → String
  | .loadSolution =>
    "Analyze a C# solution (.sln/.slnx), project (.csproj) or directory and make it the active " ++
    "solution. Replaces any previously loaded solution."
  | .getSolutionInfo =>
    "Overview of the loaded solution: projects, frameworks, statistics and conventions. " ++
    "format=\"markdown\" returns a readable summary."
  | .getProjectMetadata =>
    "Frameworks, package and project references, namespaces and statistics of one project."
  | .getFileTree =>
    "ASCII tree of the files in the solution or one project, with depth and per-folder limits."
  | .getFileMetadata => "Size, line count, kind and declared types of one file."
  | .detectConventions =>
    "Coding conventions: nullable, implicit usings, namespace style, test framework, editorconfig " ++
    "and docs."
  | .getRecentlyModifiedFiles => "Most recently modified files, newest first."
  | .searchSymbols =>
    "Find types and members by name. Exact matches rank first, then prefix, substring, signature " ++
    "and summary matches."
  | .getSymbolDetail =>
    "Full detail of one symbol: signature, location, documentation and type or member specifics."
  | .getTypeMembers => "Members of a type, optionally filtered by kind and accessibility."
  | .getTypeHierarchy =>
    "Base class chain, implemented interfaces and derived types of a type."
  | .getInterfaceImplementations => "Types implementing an interface."
  | .getCallers =>
    "Methods that call a method or constructor. Needs a live semantic engine."
  | .getCallees =>
    "Methods, constructors and properties called from a method body. Needs a live semantic engine."
  | .getUsages =>
    "Every reference to a symbol with read/write classification and a source snippet. Needs a live " ++
    "semantic engine."
  | .getDependencyGraph =>
    "Project and package dependency graph, from one project or the whole solution."
  | .getNamespaceTypes =>
    "Types declared in a namespace, optionally including nested namespaces."

-- ---------------------------------------------------------------------------
-- Arguments
-- ---------------------------------------------------------------------------

def symbolRequest : RequestShape :=
  ⟨"SymbolRequest", [
    ⟨"symbol_id", .text, true, "Stable symbol id (e.g. T:App.UserService) or unambiguous name"⟩]⟩

/-- The arguments of a tool, in order. -/
def request : Tool → RequestShape
  | .loadSolution => ⟨"LoadSolutionRequest", [
    ⟨"path", .text, true, "Path to a .sln/.slnx/.csproj file or a directory containing one"⟩]⟩
  | .getSolutionInfo => ⟨"GetSolutionInfoRequest", [
    ⟨"format", .text, false, "Output format: \"json\" (default) or \"markdown\""⟩]⟩
  | .getProjectMetadata => ⟨"GetProjectMetadataRequest", [
    ⟨"project_name", .text, true, "Project name (as listed by get_solution_info)"⟩]⟩
  | .getFileTree => ⟨"GetFileTreeRequest", [
    ⟨"project_name", .text, false, "Restrict the tree to one project"⟩,
    ⟨"max_depth", .count, false, "Maximum directory depth to render (default 4)"⟩,
    ⟨"max_entries_per_folder", .count, false, "Maximum entries rendered per folder (default 30)"⟩,
    ⟨"exclude_patterns", .texts, false,
      "Case-insensitive substrings; matching paths are left out"⟩]⟩
  | .getFileMetadata => ⟨"GetFileMetadataRequest", [
    ⟨"path", .text, true, "Solution-relative file path"⟩]⟩
  | .detectConventions => ⟨"DetectConventionsRequest", [
    ⟨"project_name", .text, false, "Project name; omit for solution-wide conventions"⟩]⟩
  | .getRecentlyModifiedFiles => ⟨"GetRecentlyModifiedFilesRequest", [
    ⟨"count", .count, false, "Number of files to return (1-100, default 10)"⟩,
    ⟨"project_name", .text, false, "Restrict to one project"⟩]⟩
  | .searchSymbols => ⟨"SearchSymbolsRequest", [
    ⟨"query", .text, true, "Name or fragment to look for"⟩,
    ⟨"kind", .text, false, "Exact symbol kind filter (Class, Method, Property, ...)"⟩,
    ⟨"scope", .text, false, "File path or namespace substring restricting the search"⟩,
    ⟨"top_k", .count, false, "Maximum results (1-100, default 20)"⟩]⟩
  | .getSymbolDetail | .getCallers | .getCallees | .getUsages => symbolRequest
  | .getTypeMembers => ⟨"GetTypeMembersRequest", [
    ⟨"type_id", .text, true, "Stable type id or unambiguous type name"⟩,
    ⟨"kind", .text, false, "Member kind filter (Method, Property, Field, ...)"⟩,
    ⟨"accessibility", .text, false, "Accessibility filter (Public, Internal, ...)"⟩]⟩
  | .getTypeHierarchy => ⟨"GetTypeHierarchyRequest", [
    ⟨"type_id", .text, true, "Stable type id or unambiguous type name"⟩]⟩
  | .getInterfaceImplementations => ⟨"GetInterfaceImplementationsRequest", [
    ⟨"interface_id", .text, true, "Stable interface id or unambiguous interface name"⟩]⟩
  | .getDependencyGraph => ⟨"GetDependencyGraphRequest", [
    ⟨"project_name", .text, false, "Start from this project; omit for all projects"⟩,
    ⟨"depth", .count, false, "Project-reference hops to follow (1-5, default 2)"⟩]⟩
  | .getNamespaceTypes => ⟨"GetNamespaceTypesRequest", [
    ⟨"namespace", .text, true, "Fully qualified namespace name"⟩,
    ⟨"include_sub_namespaces", .flag, false, "Also include types of nested namespaces"⟩]⟩

/-- The tools in the order of their names. -/
def byName : List Tool :=
  all.mergeSort fun a b => a.name ≤ b.name

end Tool

-- ---------------------------------------------------------------------------
-- The server
-- ---------------------------------------------------------------------------

namespace Server

def name : String := "codeintel-mcp"

def version : String := "0.1.1"

/-- What an agent is told about the tools as a whole. -/
def instructions : String :=
  "C# code intelligence over a loaded solution. Start with load_solution (a .sln, .slnx, .csproj or " ++
  "directory), then get_solution_info for the overview and search_symbols to find symbol ids. " ++
  "get_callers, get_callees and get_usages need a live semantic engine and report code " ++
  "\"unavailable\" without one."

/-- The names and descriptions of all tools. -/
def inventory (version : String) : Json :=
  .obj [("server", .str name), ("version", .str version),
    ("tools", .arr (Tool.byName.map fun t =>
      .obj [("name", .str t.name), ("description", .str t.description)]))]

end Server

end SolutionAtlas
