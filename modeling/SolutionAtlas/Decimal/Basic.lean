-- SUMMARY: Decimal numbers, and their nearest binary fractions of limited precision.

/-!
# Decimal numbers

A decimal is an integer times a power of ten. `BinaryFormat.round` gives the binary fraction of a
format that is nearest to a positive ratio, an even one of two that are equally near.
-/

namespace SolutionAtlas

/-- The number `± digits · 10 ^ exponent`. -/
structure Decimal where
  negative : Bool
  digits : Nat
  exponent : Int
  deriving Repr, DecidableEq

namespace Decimal

/-- The numerator and denominator of the magnitude of a decimal. -/
def ratio (d : Decimal) : Nat × Nat :=
  if d.exponent ≥ 0 then (d.digits * Nat.pow 10 d.exponent.toNat, 1)
  else (d.digits, Nat.pow 10 (-d.exponent).toNat)

/-- The digits with `places` of them behind the point, and at least one in front. -/
def withPoint (digits : String) (places : Nat) : String :=
  let padded := "".pushn '0' (places + 1 - digits.length) ++ digits
  let cut := padded.length - places
  String.ofList (padded.toList.take cut) ++ "." ++ String.ofList (padded.toList.drop cut)

/-- The decimal in positional notation, with at least one digit on either side of the point. -/
def render (d : Decimal) : String :=
  let sign := if d.negative then "-" else ""
  let digits := toString d.digits
  if d.exponent ≥ 0 then
    sign ++ (if d.digits == 0 then "0" else digits.pushn '0' d.exponent.toNat) ++ ".0"
  else sign ++ withPoint digits (-d.exponent).toNat

end Decimal

/-- Binary fractions `m · 2 ^ q` with `m < 2 ^ precision` and `minExponent ≤ q`. -/
structure BinaryFormat where
  precision : Nat
  minExponent : Int

namespace BinaryFormat

/-- Fractions in 32 bits. -/
def single : BinaryFormat := ⟨24, -149⟩

/-- Fractions in 64 bits. -/
def double : BinaryFormat := ⟨53, -1074⟩

/-- The quotient rounded to the nearest integer, to an even one in the middle. -/
def roundQuotient (num den : Nat) : Nat :=
  let q := num / den
  let twice := 2 * (num % den)
  if twice > den || (twice == den && q % 2 == 1) then q + 1 else q

/-- The ratio times `2 ^ (-q)`, as a numerator and a denominator. -/
def scale (num den : Nat) (q : Int) : Nat × Nat :=
  if q ≥ 0 then (num, den * Nat.pow 2 q.toNat) else (num * Nat.pow 2 (-q).toNat, den)

/-- The fraction `m · 2 ^ q` of a format that is nearest to a ratio. -/
def round (f : BinaryFormat) (num den : Nat) : Nat × Int :=
  if num == 0 then (0, f.minExponent)
  else
    let guess : Int := (Nat.log2 num : Int) - (Nat.log2 den : Int) - (f.precision : Int)
    let fits (q : Int) : Bool :=
      let (n, d) := scale num den q
      n < d * Nat.pow 2 f.precision
    let q := if fits guess then guess else if fits (guess + 1) then guess + 1 else guess + 2
    let q := max q f.minExponent
    let (n, d) := scale num den q
    let m := roundQuotient n d
    if m == Nat.pow 2 f.precision then (m / 2, q + 1) else (m, q)

/-- The fraction of a format that is nearest to the magnitude of a decimal. -/
def nearest (f : BinaryFormat) (d : Decimal) : Nat × Int :=
  let (num, den) := d.ratio
  f.round num den

/-- The fraction `a.1 · 2 ^ a.2` is at most `b.1 · 2 ^ b.2`. -/
def atMost (a b : Nat × Int) : Bool :=
  let low := min a.2 b.2
  a.1 * Nat.pow 2 (a.2 - low).toNat ≤ b.1 * Nat.pow 2 (b.2 - low).toNat

end BinaryFormat

end SolutionAtlas
