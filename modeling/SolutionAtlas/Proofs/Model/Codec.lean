-- SUMMARY: The JSON forms of the model are read back.
import Mathlib
import SolutionAtlas.Model.Codec
import SolutionAtlas.Proofs.Json.Respelling

/-!
# The JSON forms of the model are lawful

Each record is described by its shape. The object of a member or a type is one with that of its symbol, so
the shape of the symbol is a part of theirs.
-/

namespace SolutionAtlas

open Json

/-! ## Names -/

instance : Lawful SymbolKind :=
  .ofName SymbolKind.all SymbolKind.name (fun _ => rfl) (fun _ => rfl)
    fun k => by cases k <;> rfl

instance : Lawful Accessibility :=
  .ofName Accessibility.all Accessibility.name (fun _ => rfl) (fun _ => rfl)
    fun k => by cases k <;> rfl

instance : Lawful FileKind :=
  .ofName FileKind.all FileKind.name (fun _ => rfl) (fun _ => rfl)
    fun k => by cases k <;> rfl

instance : Lawful NamespaceStyle :=
  .ofName NamespaceStyle.all NamespaceStyle.name (fun _ => rfl) (fun _ => rfl)
    fun k => by cases k <;> rfl

/-! ## Symbols -/

def Location.shape : Shape Location :=
  ⟨Location.mk,
    .required "file_path" (·.filePath) <| .word32 "start_line" (·.startLine) <|
    .word32 "start_column" (·.startColumn) <| .word32 "end_line" (·.endLine) <|
    .word32 "end_column" (·.endColumn) .nil,
    fun _ => rfl, by decide⟩

instance : Lawful Location :=
  .ofShape Location.shape (fun _ => rfl) (fun _ => rfl) rfl

def Symbol.shape : Shape Symbol :=
  ⟨Symbol.mk,
    .optional "unique_id" (·.uniqueId) <| .required "name" (·.name) <|
    .required "signature" (·.signature) <| .required "kind" (·.kind) <|
    .required "accessibility" (·.accessibility) <| .listed "attributes" (·.attributes) <|
    .optional "summary" (·.summary) <|
    .required "locations" (·.locations) .nil,
    fun _ => rfl, by decide⟩

instance : Lawful Symbol :=
  .ofShape Symbol.shape (fun _ => rfl) (fun _ => rfl) rfl

def Parameter.shape : Shape Parameter :=
  ⟨Parameter.mk,
    .required "name" (·.name) <| .required "type_name" (·.typeName) <|
    .optional "default_value" (·.defaultValue) <|
    .listed "modifiers" (·.modifiers) .nil,
    fun _ => rfl, by decide⟩

instance : Lawful Parameter :=
  .ofShape Parameter.shape (fun _ => rfl) (fun _ => rfl) rfl

def Member.shape : Shape Member :=
  ⟨Member.mk,
    .part Symbol.shape (·.symbol) <| .required "is_static" (·.isStatic) <|
    .required "is_async" (·.isAsync) <| .required "is_virtual" (·.isVirtual) <|
    .required "is_override" (·.isOverride) <| .orElse "is_abstract" false (·.isAbstract) <|
    .optional "return_type" (·.returnType) <| .listed "parameters" (·.parameters) <|
    .optional "comment" (·.comment) <|
    .optional "containing_type_id" (·.containingTypeId) .nil,
    fun _ => rfl, by decide⟩

instance : Lawful Member :=
  .ofShape Member.shape (fun _ => rfl) (fun _ => rfl) rfl

def TypeSymbol.shape : Shape TypeSymbol :=
  ⟨TypeSymbol.mk,
    .part Symbol.shape (·.symbol) <| .orElse "members" [] (·.members) <|
    .listed "base_types" (·.baseTypes) <| .listed "implemented_interfaces" (·.interfaces) <|
    .required "is_partial" (·.isPartial) <| .required "is_abstract" (·.isAbstract) <|
    .required "is_sealed" (·.isSealed) <| .orElse "is_static" false (·.isStatic) <|
    .required "file_path" (·.filePath) <| .required "relative_path" (·.relativePath) <|
    .word32 "line_number" (·.lineNumber) .nil,
    fun _ => rfl, by decide⟩

instance : Lawful TypeSymbol :=
  .ofShape TypeSymbol.shape (fun _ => rfl) (fun _ => rfl) rfl

def Namespace.shape : Shape Namespace :=
  ⟨Namespace.mk,
    .required "name" (·.name) <| .required "types" (·.types) <|
    .required "file_path" (·.filePath) .nil,
    fun _ => rfl, by decide⟩

instance : Lawful Namespace :=
  .ofShape Namespace.shape (fun _ => rfl) (fun _ => rfl) rfl

/-! ## Projects and solutions -/

def FileEntry.shape : Shape FileEntry :=
  ⟨FileEntry.mk,
    .required "file_path" (·.filePath) <| .required "relative_path" (·.relativePath) <|
    .required "project_file_path" (·.projectFilePath) <| .required "extension" (·.extension) <|
    .required "size_bytes" (·.sizeBytes) <| .required "line_count" (·.lineCount) <|
    .required "last_write_unix_ms" (·.lastWriteMs) <|
    .required "kind" (·.kind) .nil,
    fun _ => rfl, by decide⟩

instance : Lawful FileEntry :=
  .ofShape FileEntry.shape (fun _ => rfl) (fun _ => rfl) rfl

def Conventions.shape : Shape Conventions :=
  ⟨Conventions.mk,
    .required "has_editor_config" (·.hasEditorConfig) <|
    .optional "editor_config_path" (·.editorConfigPath) <|
    .required "nullable_enabled" (·.nullableEnabled) <|
    .required "implicit_usings_enabled" (·.implicitUsingsEnabled) <|
    .optional "default_namespace" (·.defaultNamespace) <|
    .optional "namespace_style" (·.namespaceStyle) <|
    .optional "test_framework" (·.testFramework) <|
    .orElse "documentation_files" [] (·.documentationFiles) .nil,
    fun _ => rfl, by decide⟩

instance : Lawful Conventions :=
  .ofShape Conventions.shape (fun _ => rfl) (fun _ => rfl) rfl

def Statistics.shape : Shape Statistics :=
  ⟨Statistics.mk,
    .required "file_count" (·.fileCount) <| .required "source_file_count" (·.sourceFileCount) <|
    .required "total_lines" (·.totalLines) <| .required "total_size_bytes" (·.totalSizeBytes) <|
    .required "namespace_count" (·.namespaceCount) <| .required "type_count" (·.typeCount) <|
    .required "member_count" (·.memberCount) <| .required "class_count" (·.classCount) <|
    .required "interface_count" (·.interfaceCount) .nil,
    fun _ => rfl, by decide⟩

instance : Lawful Statistics :=
  .ofShape Statistics.shape (fun _ => rfl) (fun _ => rfl) rfl

def PackageReference.shape : Shape PackageReference :=
  ⟨PackageReference.mk,
    .required "name" (·.name) <| .optional "version" (·.version) .nil,
    fun _ => rfl, by decide⟩

instance : Lawful PackageReference :=
  .ofShape PackageReference.shape (fun _ => rfl) (fun _ => rfl) rfl

def Project.shape : Shape Project :=
  ⟨Project.mk,
    .required "name" (·.name) <| .required "project_file_path" (·.projectFilePath) <|
    .orElse "root_directories" [] (·.rootDirectories) <|
    .orElse "target_frameworks" [] (·.targetFrameworks) <|
    .orElse "package_references" [] (·.packageReferences) <|
    .orElse "project_references" [] (·.projectReferences) <|
    .orElse "namespaces" [] (·.namespaces) <| .orElse "files" [] (·.files) <|
    .orElse "statistics" {} (·.statistics) <|
    .orElse "conventions" {} (·.conventions) .nil,
    fun _ => rfl, by decide⟩

instance : Lawful Project :=
  .ofShape Project.shape (fun _ => rfl) (fun _ => rfl) rfl

def Solution.shape : Shape Solution :=
  ⟨Solution.mk,
    .required "name" (·.name) <| .required "path" (·.path) <| .orElse "projects" [] (·.projects) <|
    .orElse "statistics" {} (·.statistics) <|
    .orElse "conventions" {} (·.conventions) .nil,
    fun _ => rfl, by decide⟩

instance : Lawful Solution :=
  .ofShape Solution.shape (fun _ => rfl) (fun _ => rfl) rfl

end SolutionAtlas
