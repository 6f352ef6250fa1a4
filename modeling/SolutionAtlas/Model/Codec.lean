-- SUMMARY: The JSON form of symbols, files, projects and solutions.
import SolutionAtlas.Json.Record
import SolutionAtlas.Model.Solution

/-!
# JSON forms of the model

Optional fields are left out when they hold nothing. A member or a type is one object with its
symbol.
-/

namespace SolutionAtlas

open Json

instance : JsonForm SymbolKind where
  toJson k := .str k.name
  ofJson? := named? SymbolKind.all SymbolKind.name

instance : JsonForm Accessibility where
  toJson a := .str a.name
  ofJson? := named? Accessibility.all Accessibility.name

instance : JsonForm FileKind where
  toJson k := .str k.name
  ofJson? := named? FileKind.all FileKind.name

def NamespaceStyle.all : List NamespaceStyle :=
  [.fileScoped, .blockScoped, .mixed]

instance : JsonForm NamespaceStyle where
  toJson s := .str s.name
  ofJson? := named? NamespaceStyle.all NamespaceStyle.name

instance : JsonForm Location where
  toJson l := record [
    member "file_path" l.filePath, member "start_line" l.startLine,
    member "start_column" l.startColumn, member "end_line" l.endLine,
    member "end_column" l.endColumn]
  ofJson? j := do
    let f ← fields? ["file_path", "start_line", "start_column", "end_line", "end_column"] j
    return {
      filePath := ← f.required "file_path"
      startLine := ← f.word32 "start_line"
      startColumn := ← f.word32 "start_column"
      endLine := ← f.word32 "end_line"
      endColumn := ← f.word32 "end_column" }

/-- The members that a symbol contributes to an object. -/
def Symbol.members (s : Symbol) : List (String × Json) :=
  [memberIfSome "unique_id" s.uniqueId, member "name" s.name, member "signature" s.signature,
    member "kind" s.kind, member "accessibility" s.accessibility,
    memberIfAny "attributes" s.attributes, memberIfSome "summary" s.summary,
    member "locations" s.locations].flatten

/-- Reads the symbol among the fields of an object. -/
def Symbol.ofFields? (f : Fields) : Option Symbol := do
  return {
    uniqueId := ← f.optional "unique_id"
    name := ← f.required "name"
    signature := ← f.required "signature"
    kind := ← f.required "kind"
    accessibility := ← f.required "accessibility"
    attributes := ← f.orElse "attributes" []
    summary := ← f.optional "summary"
    locations := ← f.required "locations" }

instance : JsonForm Symbol where
  toJson s := .obj s.members
  ofJson? j := do
    Symbol.ofFields? (← fields? ["unique_id", "name", "signature", "kind", "accessibility",
      "attributes", "summary", "locations"] j)

instance : JsonForm Parameter where
  toJson p := record [
    member "name" p.name, member "type_name" p.typeName,
    memberIfSome "default_value" p.defaultValue, memberIfAny "modifiers" p.modifiers]
  ofJson? j := do
    let f ← fields? ["name", "type_name", "default_value", "modifiers"] j
    return {
      name := ← f.required "name"
      typeName := ← f.required "type_name"
      defaultValue := ← f.optional "default_value"
      modifiers := ← f.orElse "modifiers" [] }

instance : JsonForm Member where
  toJson m := record [
    m.symbol.members, member "is_static" m.isStatic, member "is_async" m.isAsync,
    member "is_virtual" m.isVirtual, member "is_override" m.isOverride,
    member "is_abstract" m.isAbstract, memberIfSome "return_type" m.returnType,
    memberIfAny "parameters" m.parameters, memberIfSome "comment" m.comment,
    memberIfSome "containing_type_id" m.containingTypeId]
  ofJson? j := do
    let f ← objectFields? j
    return {
      symbol := ← Symbol.ofFields? f
      isStatic := ← f.required "is_static"
      isAsync := ← f.required "is_async"
      isVirtual := ← f.required "is_virtual"
      isOverride := ← f.required "is_override"
      isAbstract := ← f.orElse "is_abstract" false
      returnType := ← f.optional "return_type"
      parameters := ← f.orElse "parameters" []
      comment := ← f.optional "comment"
      containingTypeId := ← f.optional "containing_type_id" }

instance : JsonForm TypeSymbol where
  toJson t := record [
    t.symbol.members, member "members" t.members, memberIfAny "base_types" t.baseTypes,
    memberIfAny "implemented_interfaces" t.interfaces, member "is_partial" t.isPartial,
    member "is_abstract" t.isAbstract, member "is_sealed" t.isSealed,
    member "is_static" t.isStatic, member "file_path" t.filePath,
    member "relative_path" t.relativePath, member "line_number" t.lineNumber]
  ofJson? j := do
    let f ← objectFields? j
    return {
      symbol := ← Symbol.ofFields? f
      members := ← f.orElse "members" []
      baseTypes := ← f.orElse "base_types" []
      interfaces := ← f.orElse "implemented_interfaces" []
      isPartial := ← f.required "is_partial"
      isAbstract := ← f.required "is_abstract"
      isSealed := ← f.required "is_sealed"
      isStatic := ← f.orElse "is_static" false
      filePath := ← f.required "file_path"
      relativePath := ← f.required "relative_path"
      lineNumber := ← f.word32 "line_number" }

instance : JsonForm Namespace where
  toJson n := record [
    member "name" n.name, member "types" n.types, member "file_path" n.filePath]
  ofJson? j := do
    let f ← fields? ["name", "types", "file_path"] j
    return {
      name := ← f.required "name"
      types := ← f.required "types"
      filePath := ← f.required "file_path" }

instance : JsonForm FileEntry where
  toJson e := record [
    member "file_path" e.filePath, member "relative_path" e.relativePath,
    member "project_file_path" e.projectFilePath, member "extension" e.extension,
    member "size_bytes" e.sizeBytes, member "line_count" e.lineCount,
    member "last_write_unix_ms" e.lastWriteMs, member "kind" e.kind]
  ofJson? j := do
    let f ← fields? ["file_path", "relative_path", "project_file_path", "extension", "size_bytes",
      "line_count", "last_write_unix_ms", "kind"] j
    return {
      filePath := ← f.required "file_path"
      relativePath := ← f.required "relative_path"
      projectFilePath := ← f.required "project_file_path"
      extension := ← f.required "extension"
      sizeBytes := ← f.required "size_bytes"
      lineCount := ← f.required "line_count"
      lastWriteMs := ← f.required "last_write_unix_ms"
      kind := ← f.required "kind" }

instance : JsonForm Conventions where
  toJson c := record [
    member "has_editor_config" c.hasEditorConfig,
    memberIfSome "editor_config_path" c.editorConfigPath,
    member "nullable_enabled" c.nullableEnabled,
    member "implicit_usings_enabled" c.implicitUsingsEnabled,
    memberIfSome "default_namespace" c.defaultNamespace,
    memberIfSome "namespace_style" c.namespaceStyle,
    memberIfSome "test_framework" c.testFramework,
    member "documentation_files" c.documentationFiles]
  ofJson? j := do
    let f ← fields? ["has_editor_config", "editor_config_path", "nullable_enabled",
      "implicit_usings_enabled", "default_namespace", "namespace_style", "test_framework",
      "documentation_files"] j
    return {
      hasEditorConfig := ← f.required "has_editor_config"
      editorConfigPath := ← f.optional "editor_config_path"
      nullableEnabled := ← f.required "nullable_enabled"
      implicitUsingsEnabled := ← f.required "implicit_usings_enabled"
      defaultNamespace := ← f.optional "default_namespace"
      namespaceStyle := ← f.optional "namespace_style"
      testFramework := ← f.optional "test_framework"
      documentationFiles := ← f.orElse "documentation_files" [] }

instance : JsonForm Statistics where
  toJson s := record [
    member "file_count" s.fileCount, member "source_file_count" s.sourceFileCount,
    member "total_lines" s.totalLines, member "total_size_bytes" s.totalSizeBytes,
    member "namespace_count" s.namespaceCount, member "type_count" s.typeCount,
    member "member_count" s.memberCount, member "class_count" s.classCount,
    member "interface_count" s.interfaceCount]
  ofJson? j := do
    let f ← fields? ["file_count", "source_file_count", "total_lines", "total_size_bytes",
      "namespace_count", "type_count", "member_count", "class_count", "interface_count"] j
    return {
      fileCount := ← f.required "file_count"
      sourceFileCount := ← f.required "source_file_count"
      totalLines := ← f.required "total_lines"
      totalSizeBytes := ← f.required "total_size_bytes"
      namespaceCount := ← f.required "namespace_count"
      typeCount := ← f.required "type_count"
      memberCount := ← f.required "member_count"
      classCount := ← f.required "class_count"
      interfaceCount := ← f.required "interface_count" }

instance : JsonForm PackageReference where
  toJson p := record [member "name" p.name, memberIfSome "version" p.version]
  ofJson? j := do
    let f ← fields? ["name", "version"] j
    return {
      name := ← f.required "name"
      version := ← f.optional "version" }

instance : JsonForm Project where
  toJson p := record [
    member "name" p.name, member "project_file_path" p.projectFilePath,
    member "root_directories" p.rootDirectories, member "target_frameworks" p.targetFrameworks,
    member "package_references" p.packageReferences,
    member "project_references" p.projectReferences, member "namespaces" p.namespaces,
    member "files" p.files, member "statistics" p.statistics, member "conventions" p.conventions]
  ofJson? j := do
    let f ← fields? ["name", "project_file_path", "root_directories", "target_frameworks",
      "package_references", "project_references", "namespaces", "files", "statistics",
      "conventions"] j
    return {
      name := ← f.required "name"
      projectFilePath := ← f.required "project_file_path"
      rootDirectories := ← f.orElse "root_directories" []
      targetFrameworks := ← f.orElse "target_frameworks" []
      packageReferences := ← f.orElse "package_references" []
      projectReferences := ← f.orElse "project_references" []
      namespaces := ← f.orElse "namespaces" []
      files := ← f.orElse "files" []
      statistics := ← f.orElse "statistics" {}
      conventions := ← f.orElse "conventions" {} }

instance : JsonForm Solution where
  toJson s := record [
    member "name" s.name, member "path" s.path, member "projects" s.projects,
    member "statistics" s.statistics, member "conventions" s.conventions]
  ofJson? j := do
    let f ← fields? ["name", "path", "projects", "statistics", "conventions"] j
    return {
      name := ← f.required "name"
      path := ← f.required "path"
      projects := ← f.orElse "projects" []
      statistics := ← f.orElse "statistics" {}
      conventions := ← f.orElse "conventions" {} }

end SolutionAtlas
