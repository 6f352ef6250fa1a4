-- SUMMARY: Tokens of C# text, each with the blanks in front of it and its position in the text.
import SolutionAtlas.Text.CharClass

/-!
# Tokens

A token keeps the blanks that stand in front of it, so that the source between two tokens can be
spelled again from the tokens alone. Positions count lines from zero, and columns in bytes.
-/

namespace SolutionAtlas.CSharp

/-- A position in a text: the line, and the bytes that stand before it on that line. -/
structure Position where
  line : Nat
  column : Nat
  deriving Repr, DecidableEq

namespace Position

/-- The beginning of a text. -/
def start : Position := ⟨0, 0⟩

/-- The position behind one character. -/
def step (p : Position) (c : Char) : Position :=
  if c == '\n' then ⟨p.line + 1, 0⟩ else ⟨p.line, p.column + c.utf8Size⟩

/-- The position behind a run of characters. -/
def advance (p : Position) (s : List Char) : Position :=
  s.foldl step p

end Position

/-- What a token is. Words are identifiers and keywords alike. -/
inductive TokenKind where
  | word
  | literal
  | symbol
  | comment
  | directive
  deriving Repr, DecidableEq

structure Token where
  kind : TokenKind
  /-- The blanks in front of the token, and any comments folded into them. -/
  lead : List Char
  text : List Char
  start : Position
  stop : Position
  deriving Repr, DecidableEq

namespace Token

/-- The token is the symbol or word `s`. -/
def is (t : Token) (s : String) : Bool :=
  (t.kind == .symbol || t.kind == .word) && t.text == s.toList

/-- Comments and directives may stand anywhere and take no part in a declaration. -/
def isExtra (t : Token) : Bool :=
  t.kind == .comment || t.kind == .directive

/-- The source from the first token of a list to its last. -/
def spell : List Token → List Char
  | [] => []
  | t :: ts => t.text ++ ts.flatMap fun u => u.lead ++ u.text

/-- The name of a directive, without the number sign. -/
def directiveName (t : Token) : List Char :=
  ((t.text.drop 1).dropWhile Text.isBlank).takeWhile Text.isWordPart

end Token

end SolutionAtlas.CSharp
