-- SUMMARY: The extent of C# string and character literals, nested interpolations included.

/-!
# String literals

A literal is read by a stack of frames. The bottom frame is the literal itself; an interpolation
opens a hole, and a string inside the hole opens a frame of its own. The literal ends where the
stack runs empty.
-/

namespace SolutionAtlas.CSharp

/-- What the reader of a literal is inside of. -/
inductive Frame where
  /-- `"…"`, with backslash escapes. -/
  | plain
  /-- `@"…"`, where a quote is written twice. -/
  | verbatim
  /-- A text between runs of `quotes` quotes. -/
  | raw (quotes : Nat)
  /-- `$"…"`, or `$@"…"`, where a quote is written twice, when `doubled` is set. -/
  | interpolated (doubled : Bool)
  /-- A text between runs of `quotes` quotes, with holes between runs of `braces` braces. -/
  | interpolatedRaw (quotes braces : Nat)
  /-- A hole, `depth` brackets deep, that ends with `braces` closing braces. -/
  | hole (depth braces : Nat)

/-- The number of leading `c`s. -/
def runLength (c : Char) (s : List Char) : Nat :=
  (s.takeWhile (· == c)).length

/-- The frame that a literal at the head of `s` opens, and the length of its opening. -/
def Frame.open? (s : List Char) : Option (Frame × Nat) :=
  let dollars := runLength '$' s
  let behind := s.drop dollars
  match dollars, behind with
  | 0, '@' :: '$' :: '"' :: _ => some (.interpolated true, 3)
  | 0, '@' :: '"' :: _ => some (.verbatim, 2)
  | 0, '"' :: _ =>
    let quotes := runLength '"' s
    if quotes ≥ 3 then some (.raw quotes, quotes) else some (.plain, 1)
  | n, '@' :: '"' :: _ => if n == 1 then some (.interpolated true, 3) else none
  | n, '"' :: _ =>
    let quotes := runLength '"' behind
    if quotes ≥ 3 then some (.interpolatedRaw quotes n, n + quotes) else some (.interpolated false, n + 1)
  | _, _ => none

/-- The length of the character literal at the head of a text, `0` when there is none. -/
def charLiteralLength : List Char → Nat
  | '\'' :: '\\' :: _ :: s =>
    let body := s.takeWhile fun c => c != '\'' && c != '\n'
    if (s.drop body.length).head? == some '\'' then body.length + 4 else 0
  | '\'' :: _ :: '\'' :: _ => 3
  | _ => 0

/-- One step of the reader: the stack afterwards and the number of characters read. -/
def Frame.step (top : Frame) (below : List Frame) (s : List Char) : List Frame × Nat :=
  match top with
  | .plain =>
    match s with
    | '\\' :: _ => (.plain :: below, 2)
    | '"' :: _ => (below, 1)
    | _ => (.plain :: below, 1)
  | .verbatim =>
    match s with
    | '"' :: '"' :: _ => (.verbatim :: below, 2)
    | '"' :: _ => (below, 1)
    | _ => (.verbatim :: below, 1)
  | .raw quotes =>
    if runLength '"' s ≥ quotes then (below, quotes) else (top :: below, 1)
  | .interpolated doubled =>
    match s with
    | '{' :: '{' :: _ => (top :: below, 2)
    | '{' :: _ => (.hole 0 1 :: top :: below, 1)
    | '"' :: '"' :: _ => if doubled then (top :: below, 2) else (below, 1)
    | '"' :: _ => (below, 1)
    | '\\' :: _ => (top :: below, if doubled then 1 else 2)
    | _ => (top :: below, 1)
  | .interpolatedRaw quotes braces =>
    if runLength '"' s ≥ quotes then (below, quotes)
    else
      let run := runLength '{' s
      if run ≥ braces then (.hole 0 braces :: top :: below, run) else (top :: below, 1)
  | .hole depth braces =>
    match Frame.open? s with
    | some (frame, n) => (frame :: top :: below, n)
    | none =>
      match s with
      | '}' :: _ =>
        if depth == 0 then (below, braces) else (.hole (depth - 1) braces :: below, 1)
      | ')' :: _ => (.hole (depth - 1) braces :: below, 1)
      | ']' :: _ => (.hole (depth - 1) braces :: below, 1)
      | '{' :: _ => (.hole (depth + 1) braces :: below, 1)
      | '(' :: _ => (.hole (depth + 1) braces :: below, 1)
      | '[' :: _ => (.hole (depth + 1) braces :: below, 1)
      | _ => (top :: below, max 1 (charLiteralLength s))

/-- The number of characters the reader consumes before its stack runs empty or the text ends.
Every step reads at least one character, so the length of the text bounds the steps. -/
def literalExtent : Nat → List Frame → List Char → Nat
  | 0, _, _ => 0
  | _, [], _ => 0
  | _, _, [] => 0
  | fuel + 1, top :: below, s =>
    let (stack, n) := top.step below s
    n + literalExtent fuel stack (s.drop n)

/-- The length of the string or character literal at the head of a text, `0` when there is none. -/
def literalLength (s : List Char) : Nat :=
  match Frame.open? s with
  | some (frame, n) => n + literalExtent s.length [frame] (s.drop n)
  | none => charLiteralLength s

end SolutionAtlas.CSharp
