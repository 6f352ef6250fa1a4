-- SUMMARY: The shortest decimal that reads back as a given binary fraction.
import SolutionAtlas.Decimal.Basic

/-!
# Shortest decimals

A binary fraction stands for every ratio that rounds to it. Of the decimals among these, the
shortest has the fewest digits, and is the nearest to the fraction of those.
-/

namespace SolutionAtlas.BinaryFormat

/-- The ratios `low / den` to `high / den` around `value / den` round to one fraction; the ends are
among them when `closed`. -/
structure Neighbourhood where
  low : Nat
  value : Nat
  high : Nat
  den : Nat
  closed : Bool

/-- What rounds to `m · 2 ^ q`. Below a power of two the gap to the next fraction is half as wide. -/
def neighbourhood (f : BinaryFormat) (m : Nat) (q : Int) : Neighbourhood :=
  let below := if m == Nat.pow 2 (f.precision - 1) && q > f.minExponent then 1 else 2
  let (unit, den) := if q ≥ 2 then (Nat.pow 2 (q - 2).toNat, 1) else (1, Nat.pow 2 (2 - q).toNat)
  { low := (4 * m - below) * unit
    value := 4 * m * unit
    high := (4 * m + 2) * unit
    den
    closed := m % 2 == 0 }

namespace Neighbourhood

/-- `n · 10 ^ e` lies in the neighbourhood. -/
def contains (b : Neighbourhood) (n : Nat) (e : Int) : Bool :=
  let (n, d) := if e ≥ 0 then (n * Nat.pow 10 e.toNat, 1) else (n, Nat.pow 10 (-e).toNat)
  let x := n * b.den
  let low := b.low * d
  let high := b.high * d
  if b.closed then low ≤ x && x ≤ high else low < x && x < high

/-- The best multiple of `10 ^ e` in the neighbourhood: of the two beside the value the nearer. -/
def onGrid (b : Neighbourhood) (e : Int) : Option Nat :=
  let (num, den) :=
    if e ≥ 0 then (b.value, b.den * Nat.pow 10 e.toNat)
    else (b.value * Nat.pow 10 (-e).toNat, b.den)
  let below := num / den
  let nearer := roundQuotient num den
  let farther := if nearer == below then below + 1 else below
  if nearer > 0 && b.contains nearer e then some nearer
  else if farther > 0 && b.contains farther e then some farther
  else none

/-- The first grid with a hit, from the exponent `e` downwards. -/
def firstHit (b : Neighbourhood) : Nat → Int → Nat × Int
  | 0, e => (0, e)
  | fuel + 1, e =>
    match b.onGrid e with
    | some n => (n, e)
    | none => firstHit b fuel (e - 1)

end Neighbourhood

/-- The shortest decimal that rounds to `m · 2 ^ q`. -/
def shortest (f : BinaryFormat) (negative : Bool) (m : Nat) (q : Int) : Decimal :=
  if m == 0 then ⟨negative, 0, 0⟩
  else
    let b := f.neighbourhood m q
    let top : Int := (toString (b.value / b.den)).length
    let (n, e) := b.firstHit (360 + top.toNat) top
    ⟨negative, n, e⟩

/-- The shortest decimal that reads, in 64 bits, as what `d` reads as. -/
def shortestDouble (d : Decimal) : Decimal :=
  let (m, q) := double.nearest d
  double.shortest d.negative m q

/-- The shortest decimal that reads, in 64 bits, as what `d` reads as in 32 bits. -/
def shortestSingle (d : Decimal) : Decimal :=
  let (m, q) := single.nearest d
  let widened := if q ≥ 0 then (m * Nat.pow 2 q.toNat, 1) else (m, Nat.pow 2 (-q).toNat)
  let (m, q) := double.round widened.1 widened.2
  double.shortest d.negative m q

end SolutionAtlas.BinaryFormat
