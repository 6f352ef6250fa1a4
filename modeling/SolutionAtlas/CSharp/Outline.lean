-- SUMMARY: The outline of a C# document: its namespaces, types and members with stable ids.
import SolutionAtlas.CSharp.Declaration
import SolutionAtlas.CSharp.DocComment
import SolutionAtlas.CSharp.TypeText
import SolutionAtlas.Model.Conventions

/-!
# Outlines

An outline lists the types of a document by namespace, nested types among them, with the members of
each. `Outline.ofItems` collects it from the items of the document; every declaration is named
by the path of the namespaces and types around it.
-/

namespace SolutionAtlas.CSharp

structure OutlineMember where
  id : String
  name : String
  signature : String
  kind : SymbolKind
  accessibility : Accessibility
  modifiers : List String
  attributes : List String
  doc : Option String
  summary : Option String
  returnType : Option String
  parameters : List Parameter
  span : Span
  /-- The body only calls another member and hands plain names on to it. -/
  isForwarding : Bool
  hasBody : Bool

structure OutlineType where
  id : String
  /-- The name within the namespace, as `Outer.Inner`. -/
  name : String
  signature : String
  kind : SymbolKind
  accessibility : Accessibility
  modifiers : List String
  attributes : List String
  doc : Option String
  summary : Option String
  baseTypes : List String
  interfaces : List String
  span : Span
  members : List OutlineMember

structure OutlineNamespace where
  name : String
  types : List OutlineType

/-- What is known of one document. -/
structure Outline where
  namespaces : List OutlineNamespace := []
  /-- The full name of every namespace declaration, in source order. -/
  namespaceLiterals : List String := []
  fileScopedNamespaces : Nat := 0
  blockNamespaces : Nat := 0
  /-- The head of the document says that a tool wrote it. -/
  autoGenerated : Bool := false
  lineCount : Nat := 0

namespace Outline

def namespaceStyle (o : Outline) : Option NamespaceStyle :=
  NamespaceStyle.ofCounts? o.fileScopedNamespaces o.blockNamespaces

def typeCount (o : Outline) : Nat :=
  (o.namespaces.flatMap (·.types)).length

/-- Adds a type to the namespace of a name, behind its other types. -/
def addType (name : String) (t : OutlineType) : List OutlineNamespace → List OutlineNamespace
  | [] => [⟨name, [t]⟩]
  | n :: ns => if n.name == name then { n with types := n.types ++ [t] } :: ns else n :: addType name t ns

end Outline

-- ---------------------------------------------------------------------------
-- Names
-- ---------------------------------------------------------------------------

/-- How the members and nested types of a type are named. -/
structure Container where
  kind : SymbolKind
  /-- The path in ids, as `App.Outer` with the marks of its arities. -/
  idPath : String
  /-- The path in signatures, as `App.Outer<T>`. -/
  displayPath : String
  /-- The path within the namespace, as `Outer.Inner`. -/
  namePath : String

def TypeForm.kind : TypeForm → SymbolKind
  | .classForm => .classType
  | .interfaceForm => .interfaceType
  | .structForm => .structType
  | .enumForm => .enumType
  | .recordForm => .recordType
  | .delegateForm => .delegateType

/-- The full name of a namespace declared inside another. -/
def namespaceName (outer written : String) : String :=
  let name := compact written
  if outer == globalNamespace || outer.isEmpty then name else outer ++ "." ++ name

/-- How the contents of a declared type are named. -/
def TypeHead.container (head : TypeHead) (space : String) (outer : Option Container) : Container :=
  let arity := aritySuffix head.typeParameters.length
  let generics := genericList head.typeParameters
  match outer with
  | some c =>
    { kind := head.form.kind
      idPath := c.idPath ++ "." ++ head.name ++ arity
      displayPath := c.displayPath ++ "." ++ head.name ++ generics
      namePath := c.namePath ++ "." ++ head.name }
  | none =>
    let lead := if space == globalNamespace then "" else space ++ "."
    { kind := head.form.kind
      idPath := lead ++ head.name ++ arity
      displayPath := lead ++ head.name ++ generics
      namePath := head.name }

-- ---------------------------------------------------------------------------
-- Parts of declarations
-- ---------------------------------------------------------------------------

/-- A parameter as it is declared. -/
def ParameterSyntax.parameter (p : ParameterSyntax) : Parameter :=
  { name := p.name
    typeName := compact p.typeText
    defaultValue :=
      match Text.trimChars p.behind.toList with
      | '=' :: value => Text.nonBlank? (String.ofList value)
      | _ => none
    modifiers := p.modifiers }

/-- The comments right before an item that document it: the unbroken run that starts with three
slashes. `before` holds what stands in front of the item, nearest first. -/
def docCommentsBefore (before : List Item) : List String :=
  (go before).reverse
where
  go : List Item → List String
    | .comment text :: rest =>
      if Text.startsWith (Text.trimStart text) "///" then text :: go rest else []
    | _ => []

/-- The base class and the interfaces among the types a declaration lists. -/
def splitBases (kind : SymbolKind) (bases : List String) : List String × List String :=
  let entries := (bases.map normalizeTypeName).filter (!·.isEmpty)
  match kind with
  | .enumType | .delegateType => ([], [])
  | .classType | .recordType =>
    match entries with
    | first :: rest => if looksLikeInterface first then ([], entries) else ([first], rest)
    | [] => ([], [])
  | _ => ([], entries)

/-- The expression calls something with plain names only, after an `await` if there is one. -/
def Expression.isForwarding (e : Expression) : Bool :=
  match e with
  | .await (.call arguments) | .call arguments =>
    arguments.all fun a =>
      match a with
      | .name _ => true
      | _ => false
  | _ => false

def Body.isForwarding : Body → Bool
  | .block (some e) => e.isForwarding
  | .block none => false
  | .arrow e => e.isForwarding

-- ---------------------------------------------------------------------------
-- Members
-- ---------------------------------------------------------------------------

/-- The access level of a member that names none. -/
def memberDefault (container : SymbolKind) : Accessibility :=
  match container with
  | .interfaceType | .enumType => .publicAccess
  | _ => .privateAccess

/-- The access level of a type that names none. -/
def typeDefault (outer : Option Container) : Accessibility :=
  match outer with
  | none => .internalAccess
  | some c => if c.kind = .interfaceType then .publicAccess else .privateAccess

/-- The members that one declaration adds to a type. -/
def MemberSyntax.members (syn : MemberSyntax) (container : Container) (doc : Option String) :
    List OutlineMember :=
  let base (kind : SymbolKind) (idName name shown : String) : OutlineMember :=
    { id := kind.idLead ++ container.idPath ++ "." ++ idName
      name
      signature := container.displayPath ++ "." ++ shown
      kind
      accessibility := (Accessibility.ofModifiers? syn.modifiers).getD (memberDefault container.kind)
      modifiers := syn.modifiers
      attributes := syn.attributes
      doc
      summary := doc.bind docSummary
      returnType := none
      parameters := []
      span := syn.span
      isForwarding := false
      hasBody := false }
  let declared (kind : SymbolKind) (typeText : String) (ds : List Declarator) :=
    ds.map fun d =>
      { base kind d.name d.name d.name with returnType := some (compact typeText), span := d.span }
  match syn.shape with
  | .method returns name typeParameters parameters body =>
    let parameters := parameters.map (·.parameter)
    [{ base .method
        (name ++ methodAritySuffix typeParameters.length ++ idParameterList parameters) name
        (name ++ genericList typeParameters ++ "(" ++ displayParameterList parameters ++ ")") with
      returnType := some (compact returns)
      parameters
      isForwarding := (body.map Body.isForwarding).getD false
      hasBody := body.isSome }]
  | .constructor name parameters body =>
    let parameters := parameters.map (·.parameter)
    let mark := if syn.modifiers.contains "static" then "#cctor" else "#ctor"
    [{ base .constructor (mark ++ idParameterList parameters) name
        (name ++ "(" ++ displayParameterList parameters ++ ")") with
      parameters
      hasBody := body.isSome }]
  | .property typeText name body =>
    [{ base .property name name name with returnType := some (compact typeText), hasBody := body.isSome }]
  | .event typeText name => [{ base .event name name name with returnType := some (compact typeText) }]
  | .fields typeText ds => declared .field typeText ds
  | .eventFields typeText ds => declared .event typeText ds
  | .enumMember name => [base .enumMember name name name]

/-- The property that a parameter of a record declares. -/
def ParameterSyntax.property (p : ParameterSyntax) (container : Container) : OutlineMember :=
  { id := "P:" ++ container.idPath ++ "." ++ p.name
    name := p.name
    signature := container.displayPath ++ "." ++ p.name
    kind := .property
    accessibility := .publicAccess
    modifiers := []
    attributes := []
    doc := none
    summary := none
    returnType := some p.parameter.typeName
    parameters := []
    span := p.span
    isForwarding := false
    hasBody := false }

/-- The members that the items of a type's body declare; `before` holds what stands in front of
them, nearest first. -/
def bodyMembers (container : Container) (before : List Item) : List Item → List OutlineMember
  | [] => []
  | item :: rest =>
    match item with
    | .member syn =>
      syn.members container (docText (docCommentsBefore before)) ++
        bodyMembers container (item :: before) rest
    | _ => bodyMembers container (item :: before) rest

-- ---------------------------------------------------------------------------
-- Types and namespaces
-- ---------------------------------------------------------------------------

/-- The outline of a declared type, without the types nested in it. -/
def TypeHead.outline (head : TypeHead) (container : Container) (outer : Option Container)
    (doc : Option String) (body : List Item) : OutlineType :=
  let bases := splitBases head.form.kind head.bases
  let positional :=
    match head.form with
    | .recordForm => head.parameters.map fun p => p.property container
    | _ => []
  { id := "T:" ++ container.idPath
    name := container.namePath
    signature := container.displayPath
    kind := head.form.kind
    accessibility := (Accessibility.ofModifiers? head.modifiers).getD (typeDefault outer)
    modifiers := head.modifiers
    attributes := head.attributes
    doc
    summary := doc.bind docSummary
    baseTypes := bases.1
    interfaces := bases.2
    span := head.span
    members := positional ++ bodyMembers container [] body }

mutual

/-- Adds a type and the types nested in it to an outline. -/
def collectType (space : String) (outer : Option Container) (doc : Option String) (head : TypeHead)
    (body : List Item) (o : Outline) : Outline :=
  let container := head.container space outer
  let t := head.outline container outer doc body
  collectNested space container [] body { o with namespaces := Outline.addType space t o.namespaces }
termination_by (sizeOf body, 1)

/-- Adds the types among the items of a type's body to an outline. -/
def collectNested (space : String) (container : Container) (before : List Item) (items : List Item)
    (o : Outline) : Outline :=
  match items with
  | [] => o
  | .type head body :: rest =>
    collectNested space container (.type head body :: before) rest
      (collectType space (some container) (docText (docCommentsBefore before)) head body o)
  | item :: rest => collectNested space container (item :: before) rest o
termination_by (sizeOf items, 0)

end

/-- Adds the declarations of a namespace to an outline. `outer` is the name of the namespace whose
items these are, and `current` the one that a declaration for the rest of the file has opened. -/
def collectItems (outer current : String) (before : List Item) (items : List Item)
    (o : Outline) : Outline :=
  match items with
  | [] => o
  | .nameSpace written body :: rest =>
    let name := namespaceName outer written
    let o := { o with
      blockNamespaces := o.blockNamespaces + 1
      namespaceLiterals := o.namespaceLiterals ++ [name] }
    collectItems outer current (.nameSpace written body :: before) rest
      (collectItems name name [] body o)
  | .fileNameSpace written body :: rest =>
    let name := namespaceName outer written
    let o := { o with
      fileScopedNamespaces := o.fileScopedNamespaces + 1
      namespaceLiterals := o.namespaceLiterals ++ [name] }
    collectItems outer name (.fileNameSpace written body :: before) rest
      (collectItems name name [] body o)
  | .type head body :: rest =>
    collectItems outer current (.type head body :: before) rest
      (collectType current none (docText (docCommentsBefore before)) head body o)
  | item :: rest => collectItems outer current (item :: before) rest o
termination_by sizeOf items

/-- The number of lines in which a tool may leave its mark. -/
def generatedHeaderLines : Nat := 20

/-- A tool has left its mark in the first lines of a text. -/
def hasGeneratedHeader (source : String) : Bool :=
  ((Text.lines source).take generatedHeaderLines).any fun line =>
    let line := Text.lowerAscii line
    Text.occursIn "<auto-generated" line || Text.occursIn "<autogenerated" line

/-- The outline of the items of a document. -/
def Outline.ofItems (items : List Item) : Outline :=
  collectItems globalNamespace globalNamespace [] items {}

/-- The outline of a document. -/
def Outline.ofSource (source : String) : Outline :=
  { Outline.ofItems (Item.ofSource source) with
    autoGenerated := hasGeneratedHeader source
    lineCount := (Text.lines source).length }

end SolutionAtlas.CSharp
