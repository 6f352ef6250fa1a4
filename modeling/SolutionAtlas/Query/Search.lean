-- SUMMARY: Search for symbols by name, signature and summary.
import SolutionAtlas.Query.Filter
import SolutionAtlas.Query.Loaded

/-!
# Search

A symbol matches a query in one of five tiers, of which the best counts. Hits are listed by the weights
of their tiers, the heaviest first, and by ascending keys within a tier. Case does not count anywhere.
-/

namespace SolutionAtlas

/-- How well a symbol matches. -/
inductive MatchTier where
  | sameName
  | nameBegins
  | nameHolds
  | signatureHolds
  | summaryHolds
  deriving Repr, DecidableEq

namespace MatchTier

/-- The weight of a tier, from which its score is rounded. -/
def weight : MatchTier → Decimal
  | .sameName => ⟨false, 1, 0⟩
  | .nameBegins => ⟨false, 85, -2⟩
  | .nameHolds => ⟨false, 70, -2⟩
  | .signatureHolds => ⟨false, 45, -2⟩
  | .summaryHolds => ⟨false, 30, -2⟩

def score (t : MatchTier) : Decimal :=
  BinaryFormat.shortestSingle t.weight

/-- The score of a tier as it is kept, in 32 bits. -/
def fraction (t : MatchTier) : Nat × Int :=
  BinaryFormat.single.nearest t.weight

/-- The score of a tier is not below that of another. -/
def weighsAtLeast (t u : MatchTier) : Bool :=
  BinaryFormat.atMost u.fraction t.fraction

/-- The best tier in which an entry matches a lower-case text. -/
def of? (needle : String) (e : IndexEntry) : Option MatchTier :=
  let name := Text.lower e.symbol.name
  if name = needle then some .sameName
  else if Text.startsWith name needle then some .nameBegins
  else if Text.occursIn needle name then some .nameHolds
  else if Text.occursIn needle (Text.lower e.symbol.signature) then some .signatureHolds
  else if e.symbol.summary.any fun s => Text.occursIn needle (Text.lower s) then some .summaryHolds
  else none

end MatchTier

structure SearchQuery where
  /-- What is looked for, without blanks around it. -/
  text : String
  kind : Option SymbolKind := none
  /-- A lower-case text that must occur in a path or in the signature. -/
  scope : Option String := none
  /-- How many hits are listed. -/
  limit : Nat := 20
  deriving Repr, DecidableEq

namespace SearchQuery

def defaultLimit : Nat := 20
def maxLimit : Nat := 100

/-- The query that a user's texts stand for. -/
def read (text : String) (kind scope : Option String) (limit : Option Nat) :
    Except QueryError SearchQuery :=
  match Text.nonBlank? text with
  | none => .error (.invalidArgument .emptyQuery)
  | some text => do
    return {
      text
      kind := ← kindFilter kind
      scope := (scope.bind Text.nonBlank?).map Text.lower
      limit := limitWithin limit defaultLimit maxLimit }

/-- The entry lies in the scope of a query. -/
def covers (q : SearchQuery) (e : IndexEntry) : Bool :=
  match q.scope with
  | none => true
  | some scope =>
    (e.symbol.locations.any fun l => Text.occursIn scope (Text.lower l.filePath)) ||
      Text.occursIn scope (Text.lower e.symbol.signature)

/-- The tier of an entry, when it passes the filters of a query. -/
def tier? (q : SearchQuery) (e : IndexEntry) : Option MatchTier :=
  if passes q.kind e.symbol.kind && q.covers e then MatchTier.of? (Text.lower q.text) e else none

end SearchQuery

/-- What is shown of a symbol that is found. -/
def SearchHit.ofEntry (tier : MatchTier) (e : IndexEntry) : SearchHit :=
  { symbolId := e.key
    name := e.symbol.name
    kind := e.symbol.kind
    signature := e.symbol.signature
    accessibility := e.symbol.accessibility
    summary := e.symbol.summary
    location := e.symbol.locations.head?
    score := tier.score }

namespace LoadedSolution

/-- The entries that match a query with their tiers, in ascending order of keys. -/
def matching (l : LoadedSolution) (q : SearchQuery) : List (MatchTier × IndexEntry) :=
  l.index.snapshot.filterMap fun e => (q.tier? e).map fun t => (t, e)

/-- The entries that match a query by descending scores. Those that score the same keep their order. -/
def ranked (l : LoadedSolution) (q : SearchQuery) : List (MatchTier × IndexEntry) :=
  (l.matching q).mergeSort fun a b => a.1.weighsAtLeast b.1

def search (l : LoadedSolution) (q : SearchQuery) : SearchResults :=
  let ranked := l.ranked q
  { query := q.text
    totalMatches := ranked.length
    results := (ranked.take q.limit).map fun (t, e) => SearchHit.ofEntry t e }

end LoadedSolution

end SolutionAtlas
