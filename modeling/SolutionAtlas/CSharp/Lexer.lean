-- SUMMARY: Splits C# text into tokens.
import SolutionAtlas.Text.Slice
import SolutionAtlas.CSharp.Token
import SolutionAtlas.CSharp.Literal

/-!
# Lexer

`tokens` cuts a text into tokens. Each step measures the token at the head of the rest and takes at
least one character, so the rest grows shorter.
-/

namespace SolutionAtlas.CSharp

/-- What may stand between tokens: blanks and the byte order mark. -/
def isGap (c : Char) : Bool :=
  Text.isBlank c || c.toNat == 0xFEFF

/-- Characters of identifiers, keywords and numbers. Outside ASCII every character that separates
nothing counts. -/
def isNamePart (c : Char) : Bool :=
  if c.toNat < 0x80 then c.isAlphanum || c == '_' else !isGap c

/-- Operators of more than one character. `>>` and its like stay apart, since type argument lists
may end in them. -/
def longSymbols : List (List Char) :=
  ["??=", "=>", "==", "!=", "<=", ">=", "&&", "||", "??", "++", "--", "->", "::", "+=", "-=", "*=",
    "/=", "%=", "&=", "|=", "^="].map String.toList

/-- The length of an identifier, with its unicode escapes. -/
def nameLength : List Char → Nat
  | [] => 0
  | '\\' :: s =>
    match s with
    | 'u' :: _ => 1 + nameLength s
    | 'U' :: _ => 1 + nameLength s
    | _ => 0
  | c :: s => if isNamePart c then 1 + nameLength s else 0

/-- The length of a number: digits, letters and points that a digit follows. -/
def numberLength : List Char → Nat
  | [] => 0
  | [c] => if isNamePart c then 1 else 0
  | '.' :: d :: s => if d.isDigit then 1 + numberLength (d :: s) else 0
  | c :: d :: s => if isNamePart c then 1 + numberLength (d :: s) else 0

/-- The length of a block comment, its opening included. -/
def blockCommentLength : List Char → Nat
  | [] => 0
  | '*' :: '/' :: _ => 2
  | _ :: s => 1 + blockCommentLength s

/-- The characters left on the current line. -/
def restOfLine (s : List Char) : Nat :=
  (s.takeWhile fun c => c != '\n' && c != '\r').length

/-- The kind and length of the token at the head of a text that starts with no gap. `opensLine`
says that only gaps stand before it on its line. -/
def measure (opensLine : Bool) (s : List Char) : TokenKind × Nat :=
  match s with
  | '/' :: '/' :: _ => (.comment, restOfLine s)
  | '/' :: '*' :: rest => (.comment, 2 + blockCommentLength rest)
  | '#' :: _ => if opensLine then (.directive, restOfLine s) else (.symbol, 1)
  | _ =>
    let literal := literalLength s
    if literal > 0 then (.literal, literal)
    else
      match s with
      | '@' :: rest => if nameLength rest > 0 then (.word, 1 + nameLength rest) else (.symbol, 1)
      | '.' :: d :: _ => if d.isDigit then (.literal, numberLength s) else (.symbol, 1)
      | c :: _ =>
        if c.isDigit then (.literal, numberLength s)
        else if nameLength s > 0 then (.word, nameLength s)
        else
          match longSymbols.find? fun op => (Text.dropLead? op s).isSome with
          | some op => (.symbol, if s.take 3 == ['>', '=', '>'] then 1 else op.length)
          | none => (.symbol, 1)
      | [] => (.symbol, 1)

/-- The tokens of the text `s` that begins at `position`. -/
def tokensFrom (position : Position) (opensLine : Bool) (s : List Char) : List Token :=
  let lead := s.takeWhile isGap
  match _h : s.dropWhile isGap with
  | [] => []
  | c :: rest =>
    let start := position.advance lead
    let opens := lead.contains '\n' || opensLine
    let (kind, n) := measure opens (c :: rest)
    let text := c :: rest.take (n - 1)
    let stop := start.advance text
    ⟨kind, lead, text, start, stop⟩ :: tokensFrom stop false (rest.drop (n - 1))
termination_by s.length
decreasing_by
  have h₁ : (s.dropWhile isGap).length ≤ s.length := (List.dropWhile_sublist isGap).length_le
  rw [_h] at h₁
  simp only [List.length_drop, List.length_cons] at h₁ ⊢
  omega

/-- The tokens of a text, in order. -/
def tokens (source : String) : List Token :=
  tokensFrom .start true source.toList

end SolutionAtlas.CSharp
