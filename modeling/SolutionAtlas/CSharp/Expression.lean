-- SUMMARY: Reads the expressions that decide whether a method only hands its arguments on.
import SolutionAtlas.CSharp.Nesting
import SolutionAtlas.CSharp.Syntax

/-!
# Types and expressions

`typeLength` finds where a type ends, and `Expression.read` tells calls and plain names from all
other expressions. Both work on the significant trees of a declaration.
-/

namespace SolutionAtlas.CSharp

/-- Keywords that are no identifiers and name no type. -/
def reservedWords : List String :=
  ["abstract", "as", "base", "break", "case", "catch", "checked", "class", "const", "continue",
    "default", "delegate", "do", "else", "enum", "event", "explicit", "extern", "false", "finally",
    "fixed", "for", "foreach", "goto", "if", "implicit", "in", "interface", "internal", "is", "lock",
    "namespace", "new", "null", "operator", "out", "override", "params", "private", "protected",
    "public", "readonly", "ref", "return", "sealed", "sizeof", "stackalloc", "static", "struct",
    "switch", "this", "throw", "true", "try", "typeof", "unchecked", "unsafe", "using", "virtual",
    "volatile", "while"]

/-- Keywords that name a type. -/
def predefinedTypes : List String :=
  ["bool", "byte", "char", "decimal", "double", "float", "int", "long", "object", "sbyte", "short",
    "string", "uint", "ulong", "ushort", "void"]

namespace Nest

/-- The tree can be the name of a type or a part of one. -/
def isTypeWord (n : Nest) : Bool :=
  n.isWord && !n.isOneOf reservedWords

/-- The tree is an identifier. -/
def isIdentifier (n : Nest) : Bool :=
  n.isTypeWord && !n.isOneOf predefinedTypes

/-- The brackets of an array type, which hold commas at most. -/
def isRank (n : Nest) : Bool :=
  match n.group? "[" with
  | some body => (significant body).all (·.is ",")
  | none => false

/-- The tree can stand between the angle brackets of a type. -/
def isTypeArgumentPart (n : Nest) : Bool :=
  n.isTypeWord || n.isOneOf ["in", "out", ",", ".", "::", "?", "*"] || n.isGroup "[" || n.isGroup "("

end Nest

/-- The number of trees of a dotted name with type arguments. `open_` is the number of angle
brackets that wait, and `expecting` says that an identifier must follow. -/
def namePathLength (expecting : Bool) (open_ : Nat) : List Nest → Option Nat
  | [] => if expecting || open_ > 0 then none else some 0
  | n :: ns =>
    let next (expecting : Bool) (open_ : Nat) := (namePathLength expecting open_ ns).map (· + 1)
    if open_ > 0 then
      if n.is "<" then next false (open_ + 1)
      else if n.is ">" then next false (open_ - 1)
      else if n.isTypeArgumentPart then next false open_
      else none
    else if expecting then
      if n.isTypeWord then next false 0 else none
    else if n.is "." || n.is "::" then next true 0
    else if n.is "<" then next false 1
    else some 0

/-- The number of trees of the marks behind a type: nullable, pointer and array marks. -/
def typeMarksLength : List Nest → Nat
  | [] => 0
  | n :: ns => if n.is "?" || n.is "*" || n.isRank then typeMarksLength ns + 1 else 0

/-- The number of trees of a type without the words `ref` and `scoped`. -/
def plainTypeLength (ns : List Nest) : Option Nat :=
  let core :=
    match ns with
    | n :: m :: rest =>
      if n.is "delegate" && m.is "*" then
        let conventions := rest.takeWhile fun (r : Nest) => !r.is "<"
        let behind := rest.drop conventions.length
        let arguments := behind.drop 1
        (namePathLength false 1 arguments).map (· + conventions.length + 3)
      else if n.isGroup "(" then some 1
      else namePathLength true 0 ns
    | n :: _ => if n.isGroup "(" then some 1 else namePathLength true 0 ns
    | [] => none
  core.map fun k => k + typeMarksLength (ns.drop k)

/-- The number of trees of the type at the head of a list. -/
def typeLength : List Nest → Option Nat
  | [] => none
  | n :: ns =>
    if n.is "ref" then
      match ns with
      | m :: rest =>
        if m.is "readonly" then (plainTypeLength rest).map (· + 2)
        else (plainTypeLength ns).map (· + 1)
      | [] => none
    else plainTypeLength (n :: ns)

/-- Splits a list of trees behind the angle brackets it starts with. -/
def splitAngles : List Nest → List Nest × List Nest
  | [] => ([], [])
  | n :: ns =>
    if n.is "<" then
      let k := go 1 ns
      ((n :: ns).take (k + 1), ns.drop k)
    else ([], n :: ns)
where
  go (open_ : Nat) : List Nest → Nat
    | [] => 0
    | n :: ns =>
      if n.is "<" then go (open_ + 1) ns + 1
      else if n.is ">" then (if open_ ≤ 1 then 1 else go (open_ - 1) ns + 1)
      else go open_ ns + 1

/-- The number of trees up to the angle bracket that closes a list of type arguments, when `open_`
brackets wait and nothing but types stands between. -/
def anglesLength (open_ : Nat) : List Nest → Option Nat
  | [] => none
  | n :: ns =>
    if n.is "<" then (anglesLength (open_ + 1) ns).map (· + 1)
    else if n.is ">" then
      if open_ ≤ 1 then some 1 else (anglesLength (open_ - 1) ns).map (· + 1)
    else if n.isTypeArgumentPart then (anglesLength open_ ns).map (· + 1)
    else none

/-- What may follow type arguments in an expression. A name behind the closing bracket shows that
it compares. -/
def mayFollowTypeArguments (ns : List Nest) : Bool :=
  match ns with
  | [] => true
  | n :: _ => !n.isWord

/-- The pieces of a list of trees between the commas at its top level. Commas between type arguments
do not count; `inExpression` says that angle brackets may also compare. `skip` trees belong to the
current piece whatever they are. -/
def splitCommas (inExpression : Bool) (skip : Nat) : List Nest → List (List Nest)
  | [] => [[]]
  | n :: ns =>
    let withHead (skip : Nat) : List (List Nest) :=
      match splitCommas inExpression skip ns with
      | piece :: rest => (n :: piece) :: rest
      | [] => [[n]]
    if skip > 0 then withHead (skip - 1)
    else if n.is "," then [] :: splitCommas inExpression 0 ns
    else if n.is "<" then
      match anglesLength 1 ns with
      | some k => withHead (if inExpression && !mayFollowTypeArguments (ns.drop k) then 0 else k)
      | none => withHead 0
    else withHead 0

namespace Expression

/-- The value of one argument, behind its name and its `ref`, `out` or `in`. -/
def readArgument (ns : List Nest) : Expression :=
  let unnamed :=
    match ns with
    | n :: c :: rest => if n.isIdentifier && c.is ":" then rest else ns
    | _ => ns
  let value :=
    match unnamed with
    | m :: rest => if m.isOneOf ["ref", "out", "in"] then rest else unnamed
    | [] => []
  match value with
  | [n] => if n.isIdentifier then .name (String.ofList (Nest.spell [n])) else .other
  | _ => .other

/-- The arguments between the parentheses of a call. -/
def readArguments (body : List Nest) : List Expression :=
  match Nest.significant body with
  | [] => []
  | ns => (splitCommas true 0 ns).map readArgument

/-- Reads what follows a primary expression: member accesses, indexers, calls. `last` holds the
arguments when the last of them was a call. Every step takes a tree, so `fuel` may be their number. -/
def readSuffixes : Nat → Option (List Expression) → List Nest → Expression
  | _, last, [] =>
    match last with
    | some arguments => .call arguments
    | none => .other
  | 0, _, _ => .other
  | fuel + 1, _, n :: ns =>
    match n.group? "(" with
    | some body => readSuffixes fuel (some (readArguments body)) ns
    | none =>
      if n.isGroup "[" || n.isOneOf ["!", "++", "--"] then readSuffixes fuel none ns
      else if n.isOneOf [".", "->", "::"] then
        match ns with
        | w :: rest => if w.isWord then readSuffixes fuel none rest else .other
        | [] => .other
      else if n.is "?" then
        match ns with
        | m :: _ => if m.is "." || m.isGroup "[" then readSuffixes fuel none ns else .other
        | [] => .other
      else if n.is "<" then
        match namePathLength false 1 ns with
        | some _ => readSuffixes fuel none (splitAngles (n :: ns)).2
        | none => .other
      else .other

/-- What is left of `new …` behind the type, the dimensions, the arguments and the initializer. -/
def dropCreation (ns : List Nest) : List Nest :=
  let ns := ns.drop ((plainTypeLength ns).getD 0)
  let ns := ns.dropWhile (·.isGroup "[")
  let ns := if (ns.head?.map (·.isGroup "(")).getD false then ns.drop 1 else ns
  if (ns.head?.map (·.isGroup "\x7b")).getD false then ns.drop 1 else ns

/-- Reads an expression without `await`. -/
def readPrimary : List Nest → Expression
  | [] => .other
  | n :: ns =>
    let suffixes := readSuffixes (ns.length + 1) none
    if n.isTypeWord || n.isOneOf ["this", "base"] then
      match ns with
      | [] => if n.isIdentifier then .name (String.ofList (Nest.spell [n])) else .other
      | _ =>
        if n.isOneOf ["__makeref", "__reftype", "__refvalue"] then suffixes (ns.drop 1)
        else suffixes ns
    else if n.isOneOf ["typeof", "sizeof", "checked", "unchecked", "default"] then
      match ns with
      | m :: rest => if m.isGroup "(" then suffixes rest else suffixes ns
      | [] => .other
    else if n.is "new" then
      match ns with
      | m :: rest =>
        if m.isGroup "(" then suffixes (dropCreation (m :: rest).tail) else suffixes (dropCreation ns)
      | [] => .other
    else
      match n with
      | .leaf t => if t.kind == .literal then suffixes ns else .other
      | _ =>
        match n.group? "(", ns with
        | some body, m :: _ =>
          let inner := Nest.significant body
          if m.isGroup "(" && typeLength inner == some inner.length then .other else suffixes ns
        | none, _ => if n.isGroup "[" then suffixes ns else .other
        | _, [] => .other

/-- Reads an expression. A comment in front of it hides what it is. -/
def read : List Nest → Expression
  | [] => .other
  | n :: ns =>
    if n.isExtra then .other
    else if n.is "await" && !ns.isEmpty then .await (read ns)
    else readPrimary (Nest.significant (n :: ns))

end Expression

/-- The expression of the only statement of a block, when that statement returns or evaluates one. -/
def soleExpression (body : List Nest) : Option Expression :=
  let children := body.dropWhile (·.isComment)
  let statement := children.takeWhile fun n => !n.is ";"
  let behind := children.drop statement.length
  if behind.isEmpty || (behind.drop 1).any (!·.isComment) then none
  else
    match statement with
    | n :: rest => if n.is "return" then some (Expression.read rest) else some (Expression.read statement)
    | [] => none

end SolutionAtlas.CSharp
