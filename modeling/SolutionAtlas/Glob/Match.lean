-- SUMMARY: Which paths a glob matches.
import SolutionAtlas.Glob.Basic
import SolutionAtlas.Text.Pattern

/-!
# Matching globs

A glob is matched against the bytes of a whole path, so a question mark stands for one byte. Whether
a star may stand for a slash is up to the caller.
-/

namespace SolutionAtlas.Glob

open Pattern

/-- The bytes of a character. -/
def bytesOf (c : Char) : List UInt8 :=
  (String.singleton c).toUTF8.toList

def slashByte : UInt8 := 47

def exactly (c : Char) : Pattern UInt8 :=
  seq ((bytesOf c).map fun b => .item (· == b))

/-- The ranges of bytes that a range of characters comes to: the last byte of its first character up
to the first byte of its last one, and every other byte of the two alone. -/
def byteRanges (r : Char × Char) : List (UInt8 × UInt8) :=
  let alone (bytes : List UInt8) : List (UInt8 × UInt8) := bytes.map fun b => (b, b)
  if r.1 == r.2 then alone (bytesOf r.1)
  else
    match (bytesOf r.1).reverse, bytesOf r.2 with
    | a :: before, b :: behind => alone before.reverse ++ [(a, b)] ++ alone behind
    | _, _ => []

/-- A byte is in a set of characters. -/
def CharSet.holds (set : CharSet) (b : UInt8) : Bool :=
  ((set.ranges.flatMap byteRanges).any fun r => r.1 ≤ b && b ≤ r.2) != set.negated

mutual

/-- The pattern of a piece, `none` for a group of empty branches. With `keepsSlash`, a star or a
question mark stands for no slash. -/
def piecePattern? (keepsSlash : Bool) : Piece → Option (Pattern UInt8)
  | .literal c => some (exactly c)
  | .any => some (.item fun b => !keepsSlash || b != slashByte)
  | .star => some (.most fun b => !keepsSlash || b != slashByte)
  | .treeStart =>
    some (choice [optional (exactly '/'), seq [.most fun _ => true, exactly '/']])
  | .treeEnd => some (seq [exactly '/', .most fun _ => true])
  | .treeInside =>
    some (choice [exactly '/', seq [exactly '/', .most fun _ => true, exactly '/']])
  | .oneOf set => some (.item set.holds)
  | .group branches =>
    match branchPatterns keepsSlash branches with
    | [] => none
    | patterns => some (choice patterns)

/-- The patterns of the pieces of a branch. -/
def piecePatterns (keepsSlash : Bool) : List Piece → List (Pattern UInt8)
  | [] => []
  | p :: ps =>
    match piecePattern? keepsSlash p with
    | some pattern => pattern :: piecePatterns keepsSlash ps
    | none => piecePatterns keepsSlash ps

/-- The patterns of the branches of a group, without those that are empty. -/
def branchPatterns (keepsSlash : Bool) : List (List Piece) → List (Pattern UInt8)
  | [] => []
  | b :: bs =>
    match piecePatterns keepsSlash b with
    | [] => branchPatterns keepsSlash bs
    | patterns => seq patterns :: branchPatterns keepsSlash bs

end

/-- A double star alone, which stands for everything. -/
def isEverything (g : Glob) : Bool :=
  match g.pieces with
  | [.treeStart] => true
  | _ => false

/-- The glob matches a whole path. -/
def holds (g : Glob) (keepsSlash : Bool) (path : String) : Bool :=
  g.isEverything || (seq (piecePatterns keepsSlash g.pieces)).matchesAll path.toUTF8.toList

end SolutionAtlas.Glob
