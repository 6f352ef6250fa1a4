-- SUMMARY: Reads the declarations of a document out of its nested tokens.
import SolutionAtlas.CSharp.Lexer
import SolutionAtlas.CSharp.Statement

/-!
# Reading declarations

`Item.ofSource` reads a document. A list of trees is cut into declarations by their extents; each
declaration is then taken apart from left to right: attributes, modifiers, the type, the name, what
follows the name. A declaration of no interest to an outline becomes `Item.other`.
-/

namespace SolutionAtlas.CSharp

/-- The text that a list of trees spans. -/
def Nest.spelled (ns : List Nest) : String :=
  String.ofList (Nest.spell ns)

/-- The span of a list of trees. -/
def Nest.span (ns : List Nest) : Span :=
  match ns.head?, ns.getLast? with
  | some a, some b => Span.between a.first.start b.last.stop
  | _, _ => Span.between .start .start

-- ---------------------------------------------------------------------------
-- Attributes and modifiers
-- ---------------------------------------------------------------------------

/-- The names of the attributes in one attribute list, behind its target. -/
def attributeNames (body : List Nest) : List String :=
  let ns := Nest.significant body
  let ns :=
    match ns with
    | _ :: c :: rest => if c.is ":" then rest else ns
    | _ => ns
  go (ns.length + 1) ns
where
  go : Nat → List Nest → List String
    | 0, _ => []
    | _, [] => []
    | fuel + 1, n :: ns =>
      if n.is "," then go fuel ns
      else
        let k := max 1 ((namePathLength true 0 (n :: ns)).getD 1)
        let name := Nest.spelled ((n :: ns).take k)
        let behind := ((n :: ns).drop k).dropWhile (·.isGroup "(")
        let kept := Text.trim (String.ofList (name.toList.takeWhile (· != '(')))
        if kept.isEmpty then go fuel behind else kept :: go fuel behind

/-- The parts of a declaration in front of its type or keyword. -/
structure DeclarationHead where
  attributes : List String
  modifiers : List String
  rest : List Nest

/-- Takes the attribute lists and modifiers off a list of significant trees. A repeated modifier
counts once. -/
def DeclarationHead.read (ns : List Nest) : DeclarationHead :=
  let k := declarationHeadLength ns
  let head := ns.take k
  let modifiers := (head.filter (·.isWord)).map fun n => Nest.spelled [n]
  { attributes := (head.filterMap (·.group? "[")).flatMap attributeNames
    modifiers := modifiers.foldl (fun seen m => if seen.contains m then seen else seen ++ [m]) []
    rest := ns.drop k }

-- ---------------------------------------------------------------------------
-- Parameters
-- ---------------------------------------------------------------------------

/-- The type at the head of a list is a name rather than a keyword, a tuple, or a type with marks. -/
def startsWithTypeName (ns : List Nest) : Bool :=
  match ns with
  | n :: _ =>
    n.isIdentifier && typeMarksLength (ns.drop ((namePathLength true 0 ns).getD 1)) == 0
  | [] => false

/-- The number of parameter modifiers at the head of a list. `scoped` is one in front of `ref` and
of types that are no names, unless `this` stands before it. -/
def parameterModifierCount (behindThis : Bool) : List Nest → Nat
  | [] => 0
  | n :: ns =>
    if n.isOneOf ["this", "ref", "out", "in", "readonly"] then
      parameterModifierCount (n.is "this") ns + 1
    else if n.is "scoped" then
      match ns with
      | m :: rest =>
        if behindThis || rest.isEmpty || startsWithTypeName ns then 0
        else if m.is "ref" || (typeLength ns).isSome then parameterModifierCount false ns + 1
        else 0
      | [] => 0
    else 0

/-- The number of trees of a parameter's type, which `scoped` may open. -/
def parameterTypeLength : List Nest → Option Nat
  | [] => none
  | n :: ns =>
    match ns with
    | _ :: _ :: _ => if n.is "scoped" then (typeLength ns).map (· + 1) else typeLength (n :: ns)
    | _ => typeLength (n :: ns)

/-- The trees of a parameter behind its attribute lists. -/
def behindAttributes (piece : List Nest) : List Nest :=
  piece.dropWhile (·.isGroup "[")

/-- The parameter takes a variable number of arguments. -/
def takesMany (piece : List Nest) : Bool :=
  ((behindAttributes piece).head?.map (·.is "params")).getD false

/-- Reads one parameter. -/
def readParameter (piece : List Nest) : Option ParameterSyntax :=
  let trees := behindAttributes piece
  let count := parameterModifierCount false trees
  let modifiers := (trees.take count).map fun n => Nest.spelled [n]
  let rest := trees.drop count
  let typeTrees :=
    match parameterTypeLength rest with
    | some k => if ((rest.drop k).head?.map (·.isWord)).getD false then rest.take k else []
    | none => []
  match rest.drop typeTrees.length with
  | name :: behind =>
    some {
      modifiers
      typeText := Nest.spelled typeTrees
      name := Nest.spelled [name]
      behind := String.ofList (behind.flatMap Nest.spellWithLead)
      span := Nest.span piece }
  | [] => none

/-- The trees of each of the parameters that are declared between parentheses. -/
def declaredParameters (body : List Nest) : List (List Nest) :=
  (splitCommas false 0 (Nest.significant body)).filter (!·.isEmpty)

/-- The parameters that are nodes of the syntax tree. This is an assumption about the grammar: it has a node
for every parameter but one that takes a variable number of arguments, of which the type and the name stand
in the list by themselves. -/
def parameterNodes (body : List Nest) : List (List Nest) :=
  (declaredParameters body).filter (!takesMany ·)

/-- Reads the parameters between parentheses. One that is no node is missed. -/
def readParameters (body : List Nest) : List ParameterSyntax :=
  (parameterNodes body).filterMap readParameter

/-- The names of the type parameters between angle brackets. -/
def typeParameterNames (angles : List Nest) : List String :=
  (splitCommas false 0 (angles.drop 1).dropLast).filterMap fun piece =>
    let named := (piece.dropWhile (·.isGroup "[")).filter fun n => !n.isOneOf ["in", "out"]
    named.head?.map fun n => Nest.spelled [n]

-- ---------------------------------------------------------------------------
-- Types
-- ---------------------------------------------------------------------------

/-- The texts of the types in a base list, behind its colon. -/
def baseTexts : Nat → List Nest → List String
  | 0, _ => []
  | fuel + 1, ns =>
    match typeLength ns with
    | none => []
    | some k =>
      let behind := (ns.drop k).dropWhile (·.isGroup "(")
      let text := Nest.spelled (ns.take k)
      match behind with
      | c :: rest => if c.is "," then text :: baseTexts fuel rest else [text]
      | [] => [text]

/-- What follows the name of a type: type parameters, parameters and bases, in any order. -/
structure TypeTail where
  typeParameters : List String
  parameters : List ParameterSyntax
  bases : List String

/-- Reads what follows the name of a type, up to its constraints or its body. -/
def TypeTail.read : Nat → List Nest → TypeTail
  | 0, _ => ⟨[], [], []⟩
  | _, [] => ⟨[], [], []⟩
  | fuel + 1, n :: ns =>
    if n.is "<" then
      let (angles, rest) := splitAngles (n :: ns)
      { read fuel rest with typeParameters := typeParameterNames angles }
    else if n.is ":" then { read fuel [] with bases := baseTexts ns.length.succ ns }
    else
      match n.group? "(" with
      | some body => { read fuel ns with parameters := readParameters body }
      | none => ⟨[], [], []⟩

/-- The form of a type that the trees behind the modifiers declare, and the trees from its name on. -/
def typeForm? : List Nest → Option (TypeForm × List Nest)
  | n :: ns =>
    let named (form : TypeForm) (rest : List Nest) : Option (TypeForm × List Nest) :=
      if (rest.head?.map (·.isWord)).getD false then some (form, rest) else none
    if n.is "class" then named .classForm ns
    else if n.is "interface" then named .interfaceForm ns
    else if n.is "struct" then named .structForm ns
    else if n.is "enum" then named .enumForm ns
    else if n.is "ref" then
      match ns with
      | s :: rest => if s.is "struct" then named .structForm rest else none
      | [] => none
    else if n.is "record" then
      match ns with
      | s :: rest =>
        if s.is "class" || s.is "struct" then named .recordForm rest else named .recordForm ns
      | [] => none
    else if n.is "delegate" then
      match typeLength ns with
      | some k =>
        if (ns.head?.map (·.is "*")).getD false then none else named .delegateForm (ns.drop k)
      | none => none
    else none
  | [] => none

-- ---------------------------------------------------------------------------
-- Members
-- ---------------------------------------------------------------------------

/-- The name of a member behind its type: its identifier, the type parameters and the rest. The
interface that an explicit implementation names in front is dropped. -/
def memberName? : Nat → List Nest → Option (String × List String × List Nest)
  | 0, _ => none
  | _, [] => none
  | fuel + 1, n :: ns =>
    if !n.isTypeWord then none
    else
      let (angles, rest) := splitAngles ns
      match rest with
      | d :: behind =>
        if d.is "." || d.is "::" then memberName? fuel behind
        else some (Nest.spelled [n], typeParameterNames angles, rest)
      | [] => some (Nest.spelled [n], typeParameterNames angles, [])

/-- The body of a declaration: a block in braces, or what follows an arrow. -/
def bodyOf? : List Nest → Option Body
  | [] => none
  | n :: ns =>
    match n.group? "\x7b" with
    | some body => some (.block (soleExpression body))
    | none =>
      if n.is "=>" then some (.arrow (Expression.read (ns.takeWhile (!·.is ";"))))
      else bodyOf? ns

/-- The variables that a field declaration declares, from the first name on. -/
def declarators (ns : List Nest) : List Declarator :=
  (splitCommas true 0 (ns.takeWhile (!·.is ";"))).filterMap fun piece =>
    piece.head?.map fun n => { name := Nest.spelled [n], span := Nest.span piece }

/-- The shape of a member, given its significant trees behind the modifiers and all its trees. -/
def memberShape? (rest all : List Nest) : Option MemberShape :=
  let body := bodyOf? all
  let isEvent := (rest.head?.map (·.is "event")).getD false
  let rest := if isEvent then rest.drop 1 else rest
  let constructor? :=
    match rest with
    | n :: p :: _ =>
      match p.group? "(" with
      | some parameters =>
        if n.isIdentifier then
          some (.constructor (Nest.spelled [n]) (readParameters parameters) body)
        else none
      | none => none
    | _ => none
  match constructor? with
  | some shape => some shape
  | none =>
    match typeLength rest with
    | none => none
    | some k =>
      let typeText := Nest.spelled (rest.take k)
      let named := rest.drop k
      match memberName? named.length named with
      | none => none
      | some (name, typeParameters, behind) =>
        match behind with
        | [] => none
        | n :: _ =>
          match n.group? "(" with
          | some parameters =>
            some (.method typeText name typeParameters (readParameters parameters) body)
          | none =>
            if n.isGroup "\x7b" then
              some (if isEvent then .event typeText name else .property typeText name none)
            else if n.is "=>" then some (.property typeText name body)
            else if n.isOneOf [";", "=", ","] || n.isGroup "[" then
              some (if isEvent then .eventFields typeText (declarators named)
                else .fields typeText (declarators named))
            else none

-- ---------------------------------------------------------------------------
-- Items
-- ---------------------------------------------------------------------------

/-- Where a list of trees stands. Statements occur at the top level only. -/
inductive Level where
  | top
  | body

/-- A conditional that holds attribute lists belongs to the declaration behind it. -/
def holdsAttributes : Nest → Bool
  | .conditional _ body _ =>
    let shown := body.filter fun n => !n.isComment && !n.isExtra
    !shown.isEmpty && shown.all (·.isGroup "[")
  | _ => false

/-- The trees at the head of a list declare something, rather than stand for a statement. -/
def declares (ns : List Nest) : Bool :=
  let rest := (ns.drop (declarationHeadLength ns))
  match rest with
  | n :: m :: _ =>
    (typeForm? rest).isSome || n.is "namespace" ||
      (n.is "using" && !m.isGroup "(") || (n.is "global" && m.is "using")
  | _ => false

/-- An attribute list of the whole document. -/
def isGlobalAttribute (n : Nest) : Bool :=
  match n.group? "[" with
  | some body =>
    match Nest.significant body with
    | t :: c :: _ => t.isOneOf ["assembly", "module"] && c.is ":"
    | _ => false
  | none => false

/-- Drops comments and directives at the end of a list. -/
def dropTrailingExtras (ns : List Nest) : List Nest :=
  (ns.reverse.dropWhile (·.isExtra)).reverse

/-- The comments and directives at the end of a list, as items. -/
def extraItems (ns : List Nest) : List Item :=
  ns.map fun n => if n.isComment then .comment (Nest.spelled [n]) else .other

/-- Reads the member of an enumeration. -/
def enumMember (chunk : List Nest) : Item :=
  let head := DeclarationHead.read (Nest.significant chunk)
  match head.rest with
  | n :: _ =>
    .member {
      attributes := head.attributes
      modifiers := []
      shape := .enumMember (Nest.spelled [n])
      span := Nest.span chunk }
  | [] => .other

/-- Reads the members of an enumeration. The commas between them are items too. -/
def enumItems (body : List Nest) : List Item :=
  let pieces := (splitCommas true 0 body).map fun piece =>
    let leading := piece.takeWhile fun n => n.isExtra && !holdsAttributes n
    let behind := piece.drop leading.length
    let chunk := dropTrailingExtras behind
    let trailing := behind.drop chunk.length
    extraItems leading ++ (if chunk.isEmpty then [] else [enumMember chunk]) ++ extraItems trailing
  List.intercalate [.other] pieces

mutual

/-- Reads the items of a list of trees. Every call is about fewer tokens than its caller, so their
number bounds the recursion. -/
def readItems : Nat → Level → List Nest → List Item
  | 0, _, _ => []
  | _, _, [] => []
  | fuel + 1, level, n :: ns =>
    if n.isComment then .comment (Nest.spelled [n]) :: readItems fuel level ns
    else if (n.isExtra && !holdsAttributes n) || isGlobalAttribute n then
      .other :: readItems fuel level ns
    else
      let extent :=
        match level with
        | .top =>
          if declares (Nest.significant (n :: ns)) then declarationExtent (n :: ns)
          else statementExtent (ns.length + 1) (n :: ns)
        | .body => declarationExtent (n :: ns)
      let chunk := (n :: ns).take (max 1 extent)
      let item :=
        match level with
        | .top => if declares (Nest.significant (n :: ns)) then readItem fuel chunk else .other
        | .body => readItem fuel chunk
      item :: readItems fuel level ((n :: ns).drop (max 1 extent))

/-- Reads one declaration. -/
def readItem : Nat → List Nest → Item
  | 0, _ => .other
  | fuel + 1, chunk =>
    let head := DeclarationHead.read (Nest.significant chunk)
    let body := (chunk.filterMap (·.group? "\x7b")).head?
    match head.rest with
    | [] => .other
    | n :: ns =>
      if n.is "namespace" then
        let name := Nest.spelled (ns.take ((namePathLength true 0 ns).getD 0))
        match body with
        | some inner => .nameSpace name (readItems fuel .body inner)
        | none => .fileNameSpace name []
      else
        match typeForm? (n :: ns) with
        | some (form, nameOn) =>
          let tail := TypeTail.read nameOn.length (nameOn.drop 1)
          .type {
              form
              attributes := head.attributes
              modifiers := head.modifiers
              name := Nest.spelled (nameOn.take 1)
              typeParameters := tail.typeParameters
              parameters := tail.parameters
              bases := tail.bases
              span := Nest.span chunk }
            (match form, body with
              | .enumForm, some inner => enumItems inner
              | _, some inner => readItems fuel .body inner
              | _, none => [])
        | none =>
          match memberShape? (n :: ns) chunk with
          | some shape =>
            .member {
              attributes := head.attributes
              modifiers := head.modifiers
              shape
              span := Nest.span chunk }
          | none => .other

end

/-- The items of a document. -/
def Item.ofSource (source : String) : List Item :=
  let ts := tokens source
  readItems (2 * ts.length + 2) .top (nest ts)

end SolutionAtlas.CSharp
