-- SUMMARY: Where statements and declarations end.
import SolutionAtlas.CSharp.Expression

/-!
# Extents

A declaration ends at a semicolon or at the closing brace of its body. A statement may hold further
statements. Both functions count the trees from the head of a list to the end of what stands there.
-/

namespace SolutionAtlas.CSharp

/-- Words that may stand before a declaration. -/
def modifierWords : List String :=
  ["abstract", "async", "const", "extern", "file", "fixed", "internal", "new", "override", "partial",
    "private", "protected", "public", "readonly", "required", "sealed", "static", "unsafe",
    "virtual", "volatile"]

/-- Modifiers that are identifiers elsewhere. -/
def contextualModifiers : List String :=
  ["async", "file", "partial", "required"]

/-- The list starts with a modifier. A contextual one counts only in front of a declaration that has
a name of its own. -/
def startsWithModifier : List Nest → Bool
  | [] => false
  | n :: ns =>
    if !n.isOneOf modifierWords then false
    else if !n.isOneOf contextualModifiers then true
    else
      match ns with
      | m :: o :: _ =>
        (m.isWord && !(o.isOneOf [";", "=", ",", "=>"] || o.isGroup "\x7b")) ||
          (m.isGroup "(" && o.isWord)
      | _ => false

/-- The number of trees up to and including the first semicolon. -/
def throughSemicolon : List Nest → Nat
  | [] => 0
  | n :: ns => if n.is ";" then 1 else throughSemicolon ns + 1

/-- The number of trees in front of the first one that takes part in a declaration. -/
def extrasLength (ns : List Nest) : Nat :=
  (ns.takeWhile (·.isExtra)).length

/-- The first tree of a list that takes part in a declaration. -/
def firstSignificant (ns : List Nest) : Option Nest :=
  ns.find? (!·.isExtra)

/-- The length of a declaration: up to a semicolon, or up to a body in braces unless a value
follows it. A semicolon right behind the body belongs to the declaration. -/
def declarationExtent : List Nest → Nat
  | [] => 0
  | n :: ns =>
    if n.is ";" then 1
    else if n.is "=" || n.is "=>" then throughSemicolon ns + 1
    else if n.isGroup "\x7b" then
      match firstSignificant ns with
      | some m =>
        if m.is "=" then throughSemicolon ns + 1
        else
          match ns with
          | s :: _ => if s.is ";" && s.first.lead.isEmpty then 2 else 1
          | [] => 1
      | none => 1
    else declarationExtent ns + 1

/-- The number of attribute lists and modifiers at the head of a list of significant trees. -/
def declarationHeadLength : List Nest → Nat
  | [] => 0
  | n :: ns =>
    if n.isGroup "[" || startsWithModifier (n :: ns) then declarationHeadLength ns + 1 else 0

/-- A function is declared among statements: a type, a name and parameters stand in front of a body. -/
def declaresFunction (ns : List Nest) : Bool :=
  let ns := ns.drop (declarationHeadLength ns)
  match typeLength ns with
  | none => false
  | some k =>
    match ns.drop k with
    | name :: behind =>
      match (splitAngles behind).2 with
      | parameters :: body :: _ =>
        name.isTypeWord && parameters.isGroup "(" &&
          (body.isGroup "\x7b" || body.is "=>" || body.is "where")
      | _ => false
    | [] => false

/-- The length of the statement at the head of a list. `fuel` bounds how deep statements nest in one
another; the number of trees is enough. -/
def statementExtent : Nat → List Nest → Nat
  | 0, _ => 0
  | _, [] => 0
  | fuel + 1, n :: ns =>
    let inner (skipped : Nat) (rest : List Nest) : Nat :=
      let extras := extrasLength rest
      skipped + extras + statementExtent fuel (rest.drop extras)
    /- Behind a tree and further trees that satisfy `p`. -/
    let guarded (rest : List Nest) : Nat × List Nest :=
      let extras := extrasLength rest
      (extras + 1, rest.drop (extras + 1))
    if n.is ";" || n.isGroup "\x7b" then 1
    else if n.isOneOf ["if", "while", "for", "foreach", "lock", "switch"] ||
        (n.isOneOf ["using", "fixed"] &&
          ((firstSignificant ns).map (·.isGroup "(")).getD false) then
      let (k, rest) := guarded ns
      let body := inner (k + 1) rest
      let behind := (n :: ns).drop body
      let extras := extrasLength behind
      match behind.drop extras with
      | e :: rest => if n.is "if" && e.is "else" then inner (body + extras + 1) rest else body
      | [] => body
    else if n.is "await" && ((firstSignificant ns).map (·.isOneOf ["foreach", "using"])).getD false then
      inner 1 ns
    else if n.is "do" then
      let body := inner 1 ns
      body + throughSemicolon ((n :: ns).drop body)
    else if n.isOneOf ["try", "catch", "finally"] then
      let through := ((n :: ns).takeWhile (!·.isGroup "\x7b")).length + 1
      let behind := (n :: ns).drop through
      let extras := extrasLength behind
      match behind.drop extras with
      | c :: rest =>
        if c.isOneOf ["catch", "finally"] then
          through + extras + statementExtent fuel (c :: rest)
        else through
      | [] => through
    else if n.isOneOf ["unsafe", "checked", "unchecked"] &&
        ((firstSignificant ns).map (·.isGroup "\x7b")).getD false then inner 1 ns
    else if n.isIdentifier && ((firstSignificant ns).map (·.is ":")).getD false then
      let (k, rest) := guarded ns
      inner (k + 1) rest
    else if declaresFunction (Nest.significant (n :: ns)) then declarationExtent (n :: ns)
    else throughSemicolon (n :: ns)

end SolutionAtlas.CSharp
