-- SUMMARY: The JSON forms of answers are read back.
import Mathlib
import SolutionAtlas.Answer.Codec
import SolutionAtlas.Proofs.Model.Codec

/-!
# The JSON forms of answers are lawful

All answers but those with scores are records over the model. The details of a symbol hold an object
whose tag says by which of two shapes it is read. Together with the forms of the model they are
the ones that `forms_round_trip` is about.
-/

namespace SolutionAtlas

open Json

/-! ## Names -/

instance : Lawful HierarchySource :=
  .ofName [.live, .index] HierarchySource.name (fun _ => rfl) (fun _ => rfl)
    fun k => by cases k <;> rfl

instance : Lawful CalleeKind :=
  .ofName [.invocation, .construction] CalleeKind.name (fun _ => rfl) (fun _ => rfl)
    fun k => by cases k <;> rfl

instance : Lawful UsageKind :=
  .ofName [.read, .write, .implicit] UsageKind.name (fun _ => rfl) (fun _ => rfl)
    fun k => by cases k <;> rfl

instance : Lawful DependencyNodeKind :=
  .ofName [.project, .package] DependencyNodeKind.name (fun _ => rfl) (fun _ => rfl)
    fun k => by cases k <;> rfl

instance : Lawful DependencyEdgeKind :=
  .ofName [.projectReference, .packageReference] DependencyEdgeKind.name (fun _ => rfl) (fun _ => rfl)
    fun k => by cases k <;> rfl

/-! ## Details of symbols -/

/-- The tag and the fields of a type's extra. -/
def TypeExtra.shape : Shape TypeExtra :=
  ⟨TypeExtra.mk,
    .tag "symbol_type" "type" <| .required "base_types" (·.baseTypes) <|
    .required "implemented_interfaces" (·.interfaces) <| .required "is_partial" (·.isPartial) <|
    .required "is_abstract" (·.isAbstract) <| .required "is_sealed" (·.isSealed) <|
    .required "is_static" (·.isStatic) <|
    .required "member_count" (·.memberCount) .nil,
    fun _ => rfl, by decide⟩

/-- The tag and the fields of a member's extra. -/
def MemberExtra.shape : Shape MemberExtra :=
  ⟨MemberExtra.mk,
    .tag "symbol_type" "member" <| .optional "return_type" (·.returnType) <|
    .required "parameters" (·.parameters) <| .required "is_static" (·.isStatic) <|
    .required "is_async" (·.isAsync) <| .required "is_virtual" (·.isVirtual) <|
    .required "is_override" (·.isOverride) <| .required "is_abstract" (·.isAbstract) <|
    .optional "containing_type" (·.containingType) <|
    .optional "containing_type_id" (·.containingTypeId) .nil,
    fun _ => rfl, by decide⟩

theorem SymbolExtra.ofJson?_type {e : TypeExtra} {members : List (String × Json)}
    (h : ∀ s ∈ TypeExtra.shape.slots, s.Reads e fun key => members.lookup key) :
    JsonForm.ofJson? (.obj members) = some (SymbolExtra.type e) := by
  have htag : members.lookup "symbol_type" = some (.str "type") := h _ List.mem_cons_self
  have hread : TypeExtra.ofFields? (fun key => members.lookup key) = some e := Shape.read?_eq h
  simp [JsonForm.ofJson?, fields?, Json.get?, htag, hread]

theorem SymbolExtra.ofJson?_member {e : MemberExtra} {members : List (String × Json)}
    (h : ∀ s ∈ MemberExtra.shape.slots, s.Reads e fun key => members.lookup key) :
    JsonForm.ofJson? (.obj members) = some (SymbolExtra.member e) := by
  have htag : members.lookup "symbol_type" = some (.str "member") := h _ List.mem_cons_self
  have hread : MemberExtra.ofFields? (fun key => members.lookup key) = some e := Shape.read?_eq h
  simp [JsonForm.ofJson?, fields?, Json.get?, htag, hread]

/-- Which keys are known depends on the tag. -/
instance : Lawful SymbolExtra where
  Fits
    | .type e => ∀ s ∈ TypeExtra.shape.slots, s.Fits e
    | .member e => ∀ s ∈ MemberExtra.shape.slots, s.Fits e
  respells j j' :=
    (j.get? "symbol_type" = some (.str "type") ∧
        Respelling.record (known TypeExtra.shape.slots) j j') ∨
      (j.get? "symbol_type" = some (.str "member") ∧
        Respelling.record (known MemberExtra.shape.slots) j j')
  depth := max (depthOf TypeExtra.shape.slots) (depthOf MemberExtra.shape.slots)
  plain {x} h := by
    cases x with
    | type e => exact (TypeExtra.shape.plain_write h).mono (le_max_left _ _)
    | member e => exact (MemberExtra.shape.plain_write h).mono (le_max_right _ _)
  rearranged hg x := by
    cases x with
    | type e => exact .inl ⟨rfl, TypeExtra.shape.rearranged_write hg⟩
    | member e => exact .inr ⟨rfl, MemberExtra.shape.rearranged_write hg⟩
  reads {x} {j} h hj := by
    cases x with
    | type e =>
      obtain ⟨-, hj⟩ | ⟨htag, -⟩ := hj
      · obtain ⟨members, rfl, hmembers⟩ := TypeExtra.shape.reads_of_respelled h hj
        exact SymbolExtra.ofJson?_type hmembers
      · exact absurd (Json.str.inj (Option.some.inj htag)) (by decide)
    | member e =>
      obtain ⟨htag, -⟩ | ⟨-, hj⟩ := hj
      · exact absurd (Json.str.inj (Option.some.inj htag)) (by decide)
      · obtain ⟨members, rfl, hmembers⟩ := MemberExtra.shape.reads_of_respelled h hj
        exact SymbolExtra.ofJson?_member hmembers
  null_unread := rfl

def SymbolDetail.shape : Shape SymbolDetail :=
  ⟨SymbolDetail.mk,
    .required "symbol" (·.symbol) <| .optional "project" (·.project) <|
    .optional "namespace" (·.nameSpace) <|
    .required "extra" (·.extra) .nil,
    fun _ => rfl, by decide⟩

instance : Lawful SymbolDetail :=
  .ofShape SymbolDetail.shape (fun _ => rfl) (fun _ => rfl) rfl

def TypeMembers.shape : Shape TypeMembers :=
  ⟨TypeMembers.mk,
    .required "type_id" (·.typeId) <| .required "type_name" (·.typeName) <|
    .required "total_count" (·.totalCount) <| .required "filtered_count" (·.filteredCount) <|
    .required "members" (·.members) .nil,
    fun _ => rfl, by decide⟩

instance : Lawful TypeMembers :=
  .ofShape TypeMembers.shape (fun _ => rfl) (fun _ => rfl) rfl

/-! ## Relations between symbols -/

def SymbolRef.shape : Shape SymbolRef :=
  ⟨SymbolRef.mk,
    .optional "id" (·.id) <| .required "name" (·.name) <| .optional "kind" (·.kind) <|
    .optional "signature" (·.signature) <|
    .optional "location" (·.location) .nil,
    fun _ => rfl, by decide⟩

instance : Lawful SymbolRef :=
  .ofShape SymbolRef.shape (fun _ => rfl) (fun _ => rfl) rfl

def TypeHierarchy.shape : Shape TypeHierarchy :=
  ⟨TypeHierarchy.mk,
    .required "type_id" (·.typeId) <| .required "name" (·.name) <| .required "kind" (·.kind) <|
    .required "base_types" (·.baseTypes) <| .required "base_chain" (·.baseChain) <|
    .required "implemented_interfaces" (·.interfaces) <|
    .required "derived_types" (·.derivedTypes) <|
    .required "source" (·.source) .nil,
    fun _ => rfl, by decide⟩

instance : Lawful TypeHierarchy :=
  .ofShape TypeHierarchy.shape (fun _ => rfl) (fun _ => rfl) rfl

def InterfaceImplementations.shape : Shape InterfaceImplementations :=
  ⟨InterfaceImplementations.mk,
    .required "interface_id" (·.interfaceId) <| .required "name" (·.name) <|
    .required "implementations" (·.implementations) <|
    .required "source" (·.source) .nil,
    fun _ => rfl, by decide⟩

instance : Lawful InterfaceImplementations :=
  .ofShape InterfaceImplementations.shape (fun _ => rfl) (fun _ => rfl) rfl

def Caller.shape : Shape Caller :=
  ⟨Caller.mk,
    .required "caller" (·.caller) <|
    .required "call_sites" (·.callSites) .nil,
    fun _ => rfl, by decide⟩

instance : Lawful Caller :=
  .ofShape Caller.shape (fun _ => rfl) (fun _ => rfl) rfl

def Callers.shape : Shape Callers :=
  ⟨Callers.mk,
    .required "symbol_id" (·.symbolId) <| .required "name" (·.name) <|
    .required "callers" (·.callers) <|
    .required "truncated" (·.truncated) .nil,
    fun _ => rfl, by decide⟩

instance : Lawful Callers :=
  .ofShape Callers.shape (fun _ => rfl) (fun _ => rfl) rfl

def Callee.shape : Shape Callee :=
  ⟨Callee.mk,
    .required "callee" (·.callee) <| .required "kind" (·.kind) .nil,
    fun _ => rfl, by decide⟩

instance : Lawful Callee :=
  .ofShape Callee.shape (fun _ => rfl) (fun _ => rfl) rfl

def Callees.shape : Shape Callees :=
  ⟨Callees.mk,
    .required "symbol_id" (·.symbolId) <| .required "name" (·.name) <|
    .required "callees" (·.callees) <|
    .required "truncated" (·.truncated) .nil,
    fun _ => rfl, by decide⟩

instance : Lawful Callees :=
  .ofShape Callees.shape (fun _ => rfl) (fun _ => rfl) rfl

def Usage.shape : Shape Usage :=
  ⟨Usage.mk,
    .required "file_path" (·.filePath) <| .word32 "line" (·.line) <| .word32 "column" (·.column) <|
    .required "snippet" (·.snippet) <| .required "kind" (·.kind) .nil,
    fun _ => rfl, by decide⟩

instance : Lawful Usage :=
  .ofShape Usage.shape (fun _ => rfl) (fun _ => rfl) rfl

def Usages.shape : Shape Usages :=
  ⟨Usages.mk,
    .required "symbol_id" (·.symbolId) <| .required "name" (·.name) <|
    .required "total_found" (·.totalFound) <| .required "usages" (·.usages) <|
    .required "truncated" (·.truncated) .nil,
    fun _ => rfl, by decide⟩

instance : Lawful Usages :=
  .ofShape Usages.shape (fun _ => rfl) (fun _ => rfl) rfl

/-! ## Projects, namespaces and files -/

def DependencyNode.shape : Shape DependencyNode :=
  ⟨DependencyNode.mk,
    .required "id" (·.id) <| .required "name" (·.name) <| .required "kind" (·.kind) <|
    .optional "version" (·.version) .nil,
    fun _ => rfl, by decide⟩

instance : Lawful DependencyNode :=
  .ofShape DependencyNode.shape (fun _ => rfl) (fun _ => rfl) rfl

def DependencyEdge.shape : Shape DependencyEdge :=
  ⟨DependencyEdge.mk,
    .required "from" (·.source) <| .required "to" (·.target) <|
    .required "kind" (·.kind) .nil,
    fun _ => rfl, by decide⟩

instance : Lawful DependencyEdge :=
  .ofShape DependencyEdge.shape (fun _ => rfl) (fun _ => rfl) rfl

def DependencyGraph.shape : Shape DependencyGraph :=
  ⟨DependencyGraph.mk,
    .optional "root_project" (·.rootProject) <| .required "depth" (·.depth) <|
    .required "nodes" (·.nodes) <| .required "edges" (·.edges) .nil,
    fun _ => rfl, by decide⟩

instance : Lawful DependencyGraph :=
  .ofShape DependencyGraph.shape (fun _ => rfl) (fun _ => rfl) rfl

def TypeSummary.shape : Shape TypeSummary :=
  ⟨TypeSummary.mk,
    .optional "id" (·.id) <| .required "name" (·.name) <| .required "kind" (·.kind) <|
    .required "namespace" (·.nameSpace) <| .required "signature" (·.signature) <|
    .required "accessibility" (·.accessibility) <| .required "relative_path" (·.relativePath) <|
    .word32 "line_number" (·.lineNumber) <|
    .required "member_count" (·.memberCount) .nil,
    fun _ => rfl, by decide⟩

instance : Lawful TypeSummary :=
  .ofShape TypeSummary.shape (fun _ => rfl) (fun _ => rfl) rfl

def NamespaceTypes.shape : Shape NamespaceTypes :=
  ⟨NamespaceTypes.mk,
    .required "namespace" (·.nameSpace) <|
    .required "include_sub_namespaces" (·.includeSubNamespaces) <|
    .required "types" (·.types) .nil,
    fun _ => rfl, by decide⟩

instance : Lawful NamespaceTypes :=
  .ofShape NamespaceTypes.shape (fun _ => rfl) (fun _ => rfl) rfl

def FileMetadata.shape : Shape FileMetadata :=
  ⟨FileMetadata.mk,
    .required "file" (·.file) <| .required "project_name" (·.projectName) <|
    .required "types" (·.types) .nil,
    fun _ => rfl, by decide⟩

instance : Lawful FileMetadata :=
  .ofShape FileMetadata.shape (fun _ => rfl) (fun _ => rfl) rfl

def RecentFiles.shape : Shape RecentFiles :=
  ⟨RecentFiles.mk,
    .required "total_files" (·.totalFiles) <|
    .required "files" (·.files) .nil,
    fun _ => rfl, by decide⟩

instance : Lawful RecentFiles :=
  .ofShape RecentFiles.shape (fun _ => rfl) (fun _ => rfl) rfl

def ProjectSummary.shape : Shape ProjectSummary :=
  ⟨ProjectSummary.mk,
    .required "name" (·.name) <| .required "project_file_path" (·.projectFilePath) <|
    .required "target_frameworks" (·.targetFrameworks) <|
    .required "statistics" (·.statistics) .nil,
    fun _ => rfl, by decide⟩

instance : Lawful ProjectSummary :=
  .ofShape ProjectSummary.shape (fun _ => rfl) (fun _ => rfl) rfl

def ProjectMetadata.shape : Shape ProjectMetadata :=
  ⟨ProjectMetadata.mk,
    .required "name" (·.name) <| .required "project_file_path" (·.projectFilePath) <|
    .required "root_directories" (·.rootDirectories) <|
    .required "target_frameworks" (·.targetFrameworks) <|
    .required "package_references" (·.packageReferences) <|
    .required "project_references" (·.projectReferences) <| .required "namespaces" (·.namespaces) <|
    .required "statistics" (·.statistics) <|
    .required "conventions" (·.conventions) .nil,
    fun _ => rfl, by decide⟩

instance : Lawful ProjectMetadata :=
  .ofShape ProjectMetadata.shape (fun _ => rfl) (fun _ => rfl) rfl

def SolutionOverview.shape : Shape SolutionOverview :=
  ⟨SolutionOverview.mk,
    .required "name" (·.name) <| .required "path" (·.path) <| .required "projects" (·.projects) <|
    .required "statistics" (·.statistics) <|
    .required "conventions" (·.conventions) .nil,
    fun _ => rfl, by decide⟩

instance : Lawful SolutionOverview :=
  .ofShape SolutionOverview.shape (fun _ => rfl) (fun _ => rfl) rfl

def ConventionsReport.shape : Shape ConventionsReport :=
  ⟨ConventionsReport.mk,
    .optional "project_name" (·.projectName) <|
    .required "conventions" (·.conventions) .nil,
    fun _ => rfl, by decide⟩

instance : Lawful ConventionsReport :=
  .ofShape ConventionsReport.shape (fun _ => rfl) (fun _ => rfl) rfl

/-! ## Round trips -/

/-- Every value of the model, and every answer without scores, whose numbers are within their widths is
read back: as it was written, from its text, and when the keys of its objects come in another order and
unknown ones are added at any level. -/
theorem forms_round_trip :
    (RoundTrips Solution ∧ RoundTrips Project ∧ RoundTrips Namespace ∧ RoundTrips TypeSymbol ∧
      RoundTrips Member ∧ RoundTrips Symbol ∧ RoundTrips Location ∧ RoundTrips FileEntry ∧
      RoundTrips Conventions) ∧
    (RoundTrips SymbolExtra ∧ RoundTrips SymbolDetail ∧ RoundTrips TypeMembers ∧
      RoundTrips TypeHierarchy ∧ RoundTrips InterfaceImplementations ∧ RoundTrips Callers ∧
      RoundTrips Callees ∧ RoundTrips Usages ∧ RoundTrips DependencyGraph ∧
      RoundTrips NamespaceTypes ∧ RoundTrips FileMetadata ∧ RoundTrips RecentFiles ∧
      RoundTrips ProjectMetadata ∧ RoundTrips SolutionOverview ∧ RoundTrips ConventionsReport) := by
  refine ⟨⟨?_, ?_, ?_, ?_, ?_, ?_, ?_, ?_, ?_⟩, ⟨?_, ?_, ?_, ?_, ?_, ?_, ?_, ?_, ?_, ?_, ?_, ?_, ?_, ?_, ?_⟩⟩
  all_goals exact roundTrips _ (by decide +kernel)

namespace Example

def ref : SymbolRef :=
  ⟨some "M:A.G", "G", none, none, none⟩

/-- Another spelling of the reference: its members come in reverse order and with an unknown one. -/
def refJson : Json :=
  .obj [("id", .str "M:A.G"), ("name", .str "G"), ("weight", .int 7)].reverse

def callees : Callees :=
  ⟨"M:A.F", "F", [⟨ref, .invocation⟩], false⟩

def calleesJson : Json :=
  .obj [("symbol_id", .str "M:A.F"), ("name", .str "F"),
    ("callees", .arr [.obj [("callee", refJson), ("kind", .str "Invocation")].reverse]),
    ("truncated", .bool false), ("later", .null)].reverse

theorem refJson_respells : Lawful.respells SymbolRef (toJson ref) refJson :=
  .mk [("id", .str "M:A.G"), ("name", .str "G")] [("weight", .int 7)]
    (.cons ⟨rfl, Eq, .head _, rfl⟩ (.cons ⟨rfl, Eq, .tail _ (.head _), rfl⟩ .nil))
    (by decide) (List.reverse_perm _)

theorem calleeJson_respells :
    Lawful.respells Callee (toJson (⟨ref, .invocation⟩ : Callee))
      (.obj [("callee", refJson), ("kind", .str "Invocation")].reverse) :=
  .mk [("callee", refJson), ("kind", .str "Invocation")] []
    (.cons ⟨rfl, _, .head _, refJson_respells⟩ (.cons ⟨rfl, Eq, .tail _ (.head _), rfl⟩ .nil))
    (by decide) (List.reverse_perm _)

theorem calleesJson_respells : Lawful.respells Callees (toJson callees) calleesJson :=
  .mk [("symbol_id", .str "M:A.F"), ("name", .str "F"),
      ("callees", .arr [.obj [("callee", refJson), ("kind", .str "Invocation")].reverse]),
      ("truncated", .bool false)] [("later", .null)]
    (.cons ⟨rfl, Eq, .head _, rfl⟩ (.cons ⟨rfl, Eq, .tail _ (.head _), rfl⟩
      (.cons ⟨rfl, _, .tail _ (.tail _ (.head _)), .mk (.cons calleeJson_respells .nil)⟩
        (.cons ⟨rfl, Eq, .tail _ (.tail _ (.tail _ (.head _))), rfl⟩ .nil))))
    (by decide) (List.reverse_perm _)

end Example

/-- An answer that is read from an object with its members the other way round, and with unknown ones at
two levels. -/
theorem forms_round_trip_reversed :
    Lawful.Fits Example.callees ∧
      Lawful.respells Callees (toJson Example.callees) Example.calleesJson ∧
      Example.calleesJson.get? "later" = some .null ∧
      as? Callees Example.calleesJson = some Example.callees := by
  have hfits : Lawful.Fits Example.callees := by
    simp [Lawful.Fits, Callees.shape, Callee.shape, SymbolRef.shape, Slot.ofRequired, Slot.ofSome,
      Example.callees, Example.ref]
  obtain ⟨-, -, -, -, -, -, -, hcallees, -⟩ := forms_round_trip
  exact ⟨hfits, Example.calleesJson_respells, rfl,
    (hcallees _ hfits).2.2 _ Example.calleesJson_respells⟩

end SolutionAtlas
