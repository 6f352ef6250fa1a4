-- SUMMARY: Tokens nested by brackets and by conditional directives.
import SolutionAtlas.CSharp.Token

/-!
# Nesting

The tokens of a text form trees: what stands between two matching brackets is one group, and what
stands between `#if` and its `#endif` is one conditional. A bracket without a partner stays a leaf.
-/

namespace SolutionAtlas.CSharp

inductive Nest where
  | leaf (token : Token)
  | group (opener : Token) (body : List Nest) (closer : Token)
  | conditional (opener : Token) (body : List Nest) (closer : Token)

namespace Nest

mutual

/-- The tokens of a tree, in order. -/
def tokens : Nest → List Token
  | .leaf t => [t]
  | .group o body c => o :: (listTokens body ++ [c])
  | .conditional o body c => o :: (listTokens body ++ [c])

/-- The tokens of a list of trees, in order. -/
def listTokens : List Nest → List Token
  | [] => []
  | n :: ns => n.tokens ++ listTokens ns

end

/-- The tree is the symbol or word `s`. -/
def is (n : Nest) (s : String) : Bool :=
  match n with
  | .leaf t => t.is s
  | _ => false

/-- The tree is one of the words of a list. -/
def isOneOf (n : Nest) (words : List String) : Bool :=
  words.any n.is

/-- The tree is an identifier or a keyword. -/
def isWord : Nest → Bool
  | .leaf t => t.kind == .word
  | _ => false

/-- The trees between the brackets, when the tree is a group that `bracket` opens. -/
def group? (bracket : String) : Nest → Option (List Nest)
  | .group o body _ => if o.is bracket then some body else none
  | _ => none

/-- The tree is a group that `bracket` opens. -/
def isGroup (bracket : String) (n : Nest) : Bool :=
  (n.group? bracket).isSome

/-- The tree takes no part in a declaration: a comment, a directive, or a conditional. -/
def isExtra : Nest → Bool
  | .leaf t => t.isExtra
  | .conditional .. => true
  | .group .. => false

/-- The tree is a comment. -/
def isComment : Nest → Bool
  | .leaf t => t.kind == .comment
  | _ => false

def first : Nest → Token
  | .leaf t => t
  | .group o _ _ => o
  | .conditional o _ _ => o

def last : Nest → Token
  | .leaf t => t
  | .group _ _ c => c
  | .conditional _ _ c => c

/-- The tree with its first token's lead replaced. -/
def withLead (lead : List Char) : Nest → Nest
  | .leaf t => .leaf { t with lead }
  | .group o body c => .group { o with lead } body c
  | .conditional o body c => .conditional { o with lead } body c

/-- The source that a list of trees spans. -/
def spell (ns : List Nest) : List Char :=
  Token.spell (listTokens ns)

/-- The source that a tree stands for, with what is in front of it. -/
def spellWithLead (n : Nest) : List Char :=
  n.first.lead ++ spell [n]

/-- The trees that take part in a declaration. What is left out moves into the lead of the tree
behind it, so that spelling still gives the source. -/
def significant : List Nest → List Nest :=
  go []
where
  go (lead : List Char) : List Nest → List Nest
    | [] => []
    | n :: ns =>
      if n.isExtra then go (lead ++ n.spellWithLead) ns
      else n.withLead (lead ++ n.first.lead) :: go [] ns

end Nest

/-- A bracket or an `#if` that waits for its partner, with the trees read since, latest first. -/
structure Opening where
  token : Token
  read : List Nest

namespace Opening

/-- The opening waits for this token. -/
def closedBy (o : Opening) (t : Token) : Bool :=
  if o.token.kind == .directive then t.kind == .directive && t.directiveName == "endif".toList
  else (o.token.is "(" && t.is ")") || (o.token.is "[" && t.is "]") || (o.token.is "\x7b" && t.is "\x7d")

/-- The finished group. -/
def close (o : Opening) (t : Token) : Nest :=
  if o.token.kind == .directive then .conditional o.token o.read.reverse t
  else .group o.token o.read.reverse t

/-- The token opens a group or a conditional. -/
def opens (t : Token) : Bool :=
  t.is "(" || t.is "[" || t.is "\x7b" || (t.kind == .directive && t.directiveName == "if".toList)

end Opening

/-- Adds a finished tree to the innermost opening, or to the outermost list. -/
def addNest (stack : List Opening) (done : List Nest) (n : Nest) : List Opening × List Nest :=
  match stack with
  | o :: below => ({ o with read := n :: o.read } :: below, done)
  | [] => ([], n :: done)

/-- Nests the remaining tokens, given the openings that still wait (innermost first) and the
finished trees of the outermost level (latest first). -/
def nestFrom (stack : List Opening) (done : List Nest) : List Token → List Nest
  | [] => (stack.foldl (fun inner o => o.read.reverse ++ inner |> (Nest.leaf o.token :: ·)) []) |>
      (done.reverse ++ ·)
  | t :: ts =>
    if Opening.opens t then nestFrom (⟨t, []⟩ :: stack) done ts
    else
      match stack with
      | o :: below =>
        if o.closedBy t then
          let (stack', done') := addNest below done (o.close t)
          nestFrom stack' done' ts
        else
          nestFrom ({ o with read := .leaf t :: o.read } :: below) done ts
      | [] => nestFrom [] (.leaf t :: done) ts

/-- The trees of a list of tokens. -/
def nest (ts : List Token) : List Nest :=
  nestFrom [] [] ts

end SolutionAtlas.CSharp
