-- SUMMARY: The JSON form of answers.
import SolutionAtlas.Model.Codec
import SolutionAtlas.Answer.Basic

/-!
# JSON forms of answers

A score is written with the digits that tell apart binary fractions of 64 bits, after it has been
rounded to one of 32 bits.
-/

namespace SolutionAtlas

open Json

/-- Reads a score. Whole numbers are scores too. -/
def readScore? : Json → Option Decimal
  | .real d => some (BinaryFormat.shortestSingle d)
  | .int n => some (BinaryFormat.shortestSingle ⟨n < 0, n.natAbs, 0⟩)
  | _ => none

instance : JsonForm SearchHit where
  toJson h := record [
    member "symbol_id" h.symbolId, member "name" h.name, member "kind" h.kind,
    member "signature" h.signature, member "accessibility" h.accessibility,
    memberIfSome "summary" h.summary, memberIfSome "location" h.location,
    [("score", .real h.score)]]
  ofJson? j := do
    let f ← fields? ["symbol_id", "name", "kind", "signature", "accessibility", "summary",
      "location", "score"] j
    return {
      symbolId := ← f.required "symbol_id"
      name := ← f.required "name"
      kind := ← f.required "kind"
      signature := ← f.required "signature"
      accessibility := ← f.required "accessibility"
      summary := ← f.optional "summary"
      location := ← f.optional "location"
      score := ← (f "score").bind readScore? }

instance : JsonForm SearchResults where
  toJson r := record [
    member "query" r.query, member "total_matches" r.totalMatches, member "results" r.results]
  ofJson? j := do
    let f ← fields? ["query", "total_matches", "results"] j
    return {
      query := ← f.required "query"
      totalMatches := ← f.required "total_matches"
      results := ← f.required "results" }

/-- The members that a type's extra contributes to an object. -/
def TypeExtra.members (e : TypeExtra) : List (String × Json) :=
  [member "base_types" e.baseTypes, member "implemented_interfaces" e.interfaces,
    member "is_partial" e.isPartial, member "is_abstract" e.isAbstract,
    member "is_sealed" e.isSealed, member "is_static" e.isStatic,
    member "member_count" e.memberCount].flatten

def TypeExtra.ofFields? (f : Fields) : Option TypeExtra := do
  return {
    baseTypes := ← f.required "base_types"
    interfaces := ← f.required "implemented_interfaces"
    isPartial := ← f.required "is_partial"
    isAbstract := ← f.required "is_abstract"
    isSealed := ← f.required "is_sealed"
    isStatic := ← f.required "is_static"
    memberCount := ← f.required "member_count" }

/-- The members that a member's extra contributes to an object. -/
def MemberExtra.members (e : MemberExtra) : List (String × Json) :=
  [memberIfSome "return_type" e.returnType, member "parameters" e.parameters,
    member "is_static" e.isStatic, member "is_async" e.isAsync, member "is_virtual" e.isVirtual,
    member "is_override" e.isOverride, member "is_abstract" e.isAbstract,
    memberIfSome "containing_type" e.containingType,
    memberIfSome "containing_type_id" e.containingTypeId].flatten

def MemberExtra.ofFields? (f : Fields) : Option MemberExtra := do
  return {
    returnType := ← f.optional "return_type"
    parameters := ← f.required "parameters"
    isStatic := ← f.required "is_static"
    isAsync := ← f.required "is_async"
    isVirtual := ← f.required "is_virtual"
    isOverride := ← f.required "is_override"
    isAbstract := ← f.required "is_abstract"
    containingType := ← f.optional "containing_type"
    containingTypeId := ← f.optional "containing_type_id" }

/-- The tag says whether the fields beside it are those of a type or of a member. In an array the
tag comes first. -/
instance : JsonForm SymbolExtra where
  toJson
    | .type e => .obj (("symbol_type", .str "type") :: e.members)
    | .member e => .obj (("symbol_type", .str "member") :: e.members)
  ofJson? j := do
    let (tag, rest) ←
      match j with
      | .arr (tag :: items) => some (tag, .arr items)
      | _ => (j.get? "symbol_type").map fun tag => (tag, j)
    match tag with
    | .str "type" =>
      let f ← fields? ["base_types", "implemented_interfaces", "is_partial", "is_abstract",
        "is_sealed", "is_static", "member_count"] rest
      return .type (← TypeExtra.ofFields? f)
    | .str "member" =>
      let f ← fields? ["return_type", "parameters", "is_static", "is_async", "is_virtual",
        "is_override", "is_abstract", "containing_type", "containing_type_id"] rest
      return .member (← MemberExtra.ofFields? f)
    | _ => none

instance : JsonForm SymbolDetail where
  toJson d := record [
    member "symbol" d.symbol, memberIfSome "project" d.project,
    memberIfSome "namespace" d.nameSpace, member "extra" d.extra]
  ofJson? j := do
    let f ← fields? ["symbol", "project", "namespace", "extra"] j
    return {
      symbol := ← f.required "symbol"
      project := ← f.optional "project"
      nameSpace := ← f.optional "namespace"
      extra := ← f.required "extra" }

instance : JsonForm TypeMembers where
  toJson t := record [
    member "type_id" t.typeId, member "type_name" t.typeName, member "total_count" t.totalCount,
    member "filtered_count" t.filteredCount, member "members" t.members]
  ofJson? j := do
    let f ← fields? ["type_id", "type_name", "total_count", "filtered_count", "members"] j
    return {
      typeId := ← f.required "type_id"
      typeName := ← f.required "type_name"
      totalCount := ← f.required "total_count"
      filteredCount := ← f.required "filtered_count"
      members := ← f.required "members" }

instance : JsonForm HierarchySource where
  toJson s := .str s.name
  ofJson? := named? [.live, .index] HierarchySource.name

instance : JsonForm SymbolRef where
  toJson r := record [
    memberIfSome "id" r.id, member "name" r.name, memberIfSome "kind" r.kind,
    memberIfSome "signature" r.signature, memberIfSome "location" r.location]
  ofJson? j := do
    let f ← fields? ["id", "name", "kind", "signature", "location"] j
    return {
      id := ← f.optional "id"
      name := ← f.required "name"
      kind := ← f.optional "kind"
      signature := ← f.optional "signature"
      location := ← f.optional "location" }

instance : JsonForm TypeHierarchy where
  toJson t := record [
    member "type_id" t.typeId, member "name" t.name, member "kind" t.kind,
    member "base_types" t.baseTypes, member "base_chain" t.baseChain,
    member "implemented_interfaces" t.interfaces, member "derived_types" t.derivedTypes,
    member "source" t.source]
  ofJson? j := do
    let f ← fields? ["type_id", "name", "kind", "base_types", "base_chain",
      "implemented_interfaces", "derived_types", "source"] j
    return {
      typeId := ← f.required "type_id"
      name := ← f.required "name"
      kind := ← f.required "kind"
      baseTypes := ← f.required "base_types"
      baseChain := ← f.required "base_chain"
      interfaces := ← f.required "implemented_interfaces"
      derivedTypes := ← f.required "derived_types"
      source := ← f.required "source" }

instance : JsonForm InterfaceImplementations where
  toJson i := record [
    member "interface_id" i.interfaceId, member "name" i.name,
    member "implementations" i.implementations, member "source" i.source]
  ofJson? j := do
    let f ← fields? ["interface_id", "name", "implementations", "source"] j
    return {
      interfaceId := ← f.required "interface_id"
      name := ← f.required "name"
      implementations := ← f.required "implementations"
      source := ← f.required "source" }

instance : JsonForm Caller where
  toJson c := record [member "caller" c.caller, member "call_sites" c.callSites]
  ofJson? j := do
    let f ← fields? ["caller", "call_sites"] j
    return {
      caller := ← f.required "caller"
      callSites := ← f.required "call_sites" }

instance : JsonForm Callers where
  toJson c := record [
    member "symbol_id" c.symbolId, member "name" c.name, member "callers" c.callers,
    member "truncated" c.truncated]
  ofJson? j := do
    let f ← fields? ["symbol_id", "name", "callers", "truncated"] j
    return {
      symbolId := ← f.required "symbol_id"
      name := ← f.required "name"
      callers := ← f.required "callers"
      truncated := ← f.required "truncated" }

instance : JsonForm CalleeKind where
  toJson k := .str k.name
  ofJson? := named? [.invocation, .construction] CalleeKind.name

instance : JsonForm Callee where
  toJson c := record [member "callee" c.callee, member "kind" c.kind]
  ofJson? j := do
    let f ← fields? ["callee", "kind"] j
    return {
      callee := ← f.required "callee"
      kind := ← f.required "kind" }

instance : JsonForm Callees where
  toJson c := record [
    member "symbol_id" c.symbolId, member "name" c.name, member "callees" c.callees,
    member "truncated" c.truncated]
  ofJson? j := do
    let f ← fields? ["symbol_id", "name", "callees", "truncated"] j
    return {
      symbolId := ← f.required "symbol_id"
      name := ← f.required "name"
      callees := ← f.required "callees"
      truncated := ← f.required "truncated" }

instance : JsonForm UsageKind where
  toJson k := .str k.name
  ofJson? := named? [.read, .write, .implicit] UsageKind.name

instance : JsonForm Usage where
  toJson u := record [
    member "file_path" u.filePath, member "line" u.line, member "column" u.column,
    member "snippet" u.snippet, member "kind" u.kind]
  ofJson? j := do
    let f ← fields? ["file_path", "line", "column", "snippet", "kind"] j
    return {
      filePath := ← f.required "file_path"
      line := ← f.word32 "line"
      column := ← f.word32 "column"
      snippet := ← f.required "snippet"
      kind := ← f.required "kind" }

instance : JsonForm Usages where
  toJson u := record [
    member "symbol_id" u.symbolId, member "name" u.name, member "total_found" u.totalFound,
    member "usages" u.usages, member "truncated" u.truncated]
  ofJson? j := do
    let f ← fields? ["symbol_id", "name", "total_found", "usages", "truncated"] j
    return {
      symbolId := ← f.required "symbol_id"
      name := ← f.required "name"
      totalFound := ← f.required "total_found"
      usages := ← f.required "usages"
      truncated := ← f.required "truncated" }

instance : JsonForm DependencyNodeKind where
  toJson k := .str k.name
  ofJson? := named? [.project, .package] DependencyNodeKind.name

instance : JsonForm DependencyNode where
  toJson n := record [
    member "id" n.id, member "name" n.name, member "kind" n.kind, memberIfSome "version" n.version]
  ofJson? j := do
    let f ← fields? ["id", "name", "kind", "version"] j
    return {
      id := ← f.required "id"
      name := ← f.required "name"
      kind := ← f.required "kind"
      version := ← f.optional "version" }

instance : JsonForm DependencyEdgeKind where
  toJson k := .str k.name
  ofJson? := named? [.projectReference, .packageReference] DependencyEdgeKind.name

instance : JsonForm DependencyEdge where
  toJson e := record [member "from" e.source, member "to" e.target, member "kind" e.kind]
  ofJson? j := do
    let f ← fields? ["from", "to", "kind"] j
    return {
      source := ← f.required "from"
      target := ← f.required "to"
      kind := ← f.required "kind" }

instance : JsonForm DependencyGraph where
  toJson g := record [
    memberIfSome "root_project" g.rootProject, member "depth" g.depth, member "nodes" g.nodes,
    member "edges" g.edges]
  ofJson? j := do
    let f ← fields? ["root_project", "depth", "nodes", "edges"] j
    return {
      rootProject := ← f.optional "root_project"
      depth := ← f.required "depth"
      nodes := ← f.required "nodes"
      edges := ← f.required "edges" }

instance : JsonForm TypeSummary where
  toJson t := record [
    memberIfSome "id" t.id, member "name" t.name, member "kind" t.kind,
    member "namespace" t.nameSpace, member "signature" t.signature,
    member "accessibility" t.accessibility, member "relative_path" t.relativePath,
    member "line_number" t.lineNumber, member "member_count" t.memberCount]
  ofJson? j := do
    let f ← fields? ["id", "name", "kind", "namespace", "signature", "accessibility",
      "relative_path", "line_number", "member_count"] j
    return {
      id := ← f.optional "id"
      name := ← f.required "name"
      kind := ← f.required "kind"
      nameSpace := ← f.required "namespace"
      signature := ← f.required "signature"
      accessibility := ← f.required "accessibility"
      relativePath := ← f.required "relative_path"
      lineNumber := ← f.word32 "line_number"
      memberCount := ← f.required "member_count" }

instance : JsonForm NamespaceTypes where
  toJson n := record [
    member "namespace" n.nameSpace, member "include_sub_namespaces" n.includeSubNamespaces,
    member "types" n.types]
  ofJson? j := do
    let f ← fields? ["namespace", "include_sub_namespaces", "types"] j
    return {
      nameSpace := ← f.required "namespace"
      includeSubNamespaces := ← f.required "include_sub_namespaces"
      types := ← f.required "types" }

instance : JsonForm FileMetadata where
  toJson m := record [
    member "file" m.file, member "project_name" m.projectName, member "types" m.types]
  ofJson? j := do
    let f ← fields? ["file", "project_name", "types"] j
    return {
      file := ← f.required "file"
      projectName := ← f.required "project_name"
      types := ← f.required "types" }

instance : JsonForm RecentFiles where
  toJson r := record [member "total_files" r.totalFiles, member "files" r.files]
  ofJson? j := do
    let f ← fields? ["total_files", "files"] j
    return {
      totalFiles := ← f.required "total_files"
      files := ← f.required "files" }

instance : JsonForm ProjectSummary where
  toJson p := record [
    member "name" p.name, member "project_file_path" p.projectFilePath,
    member "target_frameworks" p.targetFrameworks, member "statistics" p.statistics]
  ofJson? j := do
    let f ← fields? ["name", "project_file_path", "target_frameworks", "statistics"] j
    return {
      name := ← f.required "name"
      projectFilePath := ← f.required "project_file_path"
      targetFrameworks := ← f.required "target_frameworks"
      statistics := ← f.required "statistics" }

instance : JsonForm ProjectMetadata where
  toJson p := record [
    member "name" p.name, member "project_file_path" p.projectFilePath,
    member "root_directories" p.rootDirectories, member "target_frameworks" p.targetFrameworks,
    member "package_references" p.packageReferences,
    member "project_references" p.projectReferences, member "namespaces" p.namespaces,
    member "statistics" p.statistics, member "conventions" p.conventions]
  ofJson? j := do
    let f ← fields? ["name", "project_file_path", "root_directories", "target_frameworks",
      "package_references", "project_references", "namespaces", "statistics", "conventions"] j
    return {
      name := ← f.required "name"
      projectFilePath := ← f.required "project_file_path"
      rootDirectories := ← f.required "root_directories"
      targetFrameworks := ← f.required "target_frameworks"
      packageReferences := ← f.required "package_references"
      projectReferences := ← f.required "project_references"
      namespaces := ← f.required "namespaces"
      statistics := ← f.required "statistics"
      conventions := ← f.required "conventions" }

instance : JsonForm SolutionOverview where
  toJson s := record [
    member "name" s.name, member "path" s.path, member "projects" s.projects,
    member "statistics" s.statistics, member "conventions" s.conventions]
  ofJson? j := do
    let f ← fields? ["name", "path", "projects", "statistics", "conventions"] j
    return {
      name := ← f.required "name"
      path := ← f.required "path"
      projects := ← f.required "projects"
      statistics := ← f.required "statistics"
      conventions := ← f.required "conventions" }

instance : JsonForm ConventionsReport where
  toJson r := record [
    memberIfSome "project_name" r.projectName, member "conventions" r.conventions]
  ofJson? j := do
    let f ← fields? ["project_name", "conventions"] j
    return {
      projectName := ← f.optional "project_name"
      conventions := ← f.required "conventions" }

instance : JsonForm ErrorEnvelope where
  toJson e := record [member "error" e.error, member "code" e.code, memberIfSome "hint" e.hint]
  ofJson? j := do
    let f ← fields? ["error", "code", "hint"] j
    return {
      error := ← f.required "error"
      code := ← f.required "code"
      hint := ← f.optional "hint" }

end SolutionAtlas
