-- SUMMARY: Reads JSON values from text.
import SolutionAtlas.Json.Basic

/-!
# Reading JSON

The reader accepts exactly the JSON grammar, to a nesting depth of 127. An integer that needs more
than 64 bits is read as a decimal.
-/

namespace SolutionAtlas.Json

/-- Blanks between the tokens of a JSON text. -/
def isGap (c : Char) : Bool :=
  c == ' ' || c == '\n' || c == '\r' || c == '\t'

def dropGaps (s : List Char) : List Char :=
  s.dropWhile isGap

/-- The value of a hexadecimal digit. -/
def hexDigit? (c : Char) : Option Nat :=
  if c.isDigit then some (c.toNat - 48)
  else if 'a' ≤ c && c ≤ 'f' then some (c.toNat - 87)
  else if 'A' ≤ c && c ≤ 'F' then some (c.toNat - 55)
  else none

/-- The number that four hexadecimal digits at the head of a text stand for. -/
def hexUnit? : List Char → Option (Nat × List Char)
  | a :: b :: c :: d :: s => do
    let a ← hexDigit? a
    let b ← hexDigit? b
    let c ← hexDigit? c
    let d ← hexDigit? d
    some (((a * 16 + b) * 16 + c) * 16 + d, s)
  | _ => none

/-- The character behind `\u`. Halves of a surrogate pair count only together. -/
def escapedUnit? (s : List Char) : Option (Char × List Char) := do
  let (u, s) ← hexUnit? s
  if 0xD800 ≤ u && u < 0xDC00 then
    match s with
    | '\\' :: 'u' :: s =>
      let (v, s) ← hexUnit? s
      if 0xDC00 ≤ v && v < 0xE000 then
        some (Char.ofNat (0x10000 + (u - 0xD800) * 0x400 + (v - 0xDC00)), s)
      else none
    | _ => none
  else if 0xDC00 ≤ u && u < 0xE000 then none
  else some (Char.ofNat u, s)

/-- Reads a string behind its opening quote; `acc` holds what is read, latest first. The length of
the text bounds the steps. -/
def readString : Nat → List Char → List Char → Option (String × List Char)
  | 0, _, _ => none
  | fuel + 1, acc, s =>
    match s with
    | '"' :: rest => some (String.ofList acc.reverse, rest)
    | '\\' :: 'u' :: rest => do
      let (c, rest) ← escapedUnit? rest
      readString fuel (c :: acc) rest
    | '\\' :: c :: rest =>
      match c with
      | '"' => readString fuel ('"' :: acc) rest
      | '\\' => readString fuel ('\\' :: acc) rest
      | '/' => readString fuel ('/' :: acc) rest
      | 'b' => readString fuel ('\x08' :: acc) rest
      | 'f' => readString fuel ('\x0c' :: acc) rest
      | 'n' => readString fuel ('\n' :: acc) rest
      | 'r' => readString fuel ('\r' :: acc) rest
      | 't' => readString fuel ('\t' :: acc) rest
      | _ => none
    | c :: rest => if c.toNat < 0x20 then none else readString fuel (c :: acc) rest
    | [] => none

/-- The number that a run of digits stands for. -/
def digitsValue (ds : List Char) : Nat :=
  ds.foldl (fun n d => n * 10 + (d.toNat - 48)) 0

/-- Splits a text behind the digits it starts with. -/
def splitDigits (s : List Char) : List Char × List Char :=
  (s.takeWhile Char.isDigit, s.dropWhile Char.isDigit)

/-- An integer, when 64 bits hold it, and otherwise a decimal. Minus zero is a decimal. -/
def ofInteger (negative : Bool) (n : Nat) : Json :=
  if negative then
    if n == 0 || n > 0x8000000000000000 then .real ⟨true, n, 0⟩ else .int (-n)
  else if n ≤ 0xFFFFFFFFFFFFFFFF then .int n else .real ⟨false, n, 0⟩

/-- Reads a number whose sign has been read. -/
def readNumber (negative : Bool) (s : List Char) : Option (Json × List Char) := do
  let (whole, s) := splitDigits s
  if whole.isEmpty || (whole.length > 1 && whole.head? == some '0') then none
  else
    let (fraction, s, hasPoint) :=
      match s with
      | '.' :: rest => ((splitDigits rest).1, (splitDigits rest).2, true)
      | _ => ([], s, false)
    if hasPoint && fraction.isEmpty then none
    else
      let exponent : Option (Option Int × List Char) :=
        match s with
        | e :: rest =>
          if e == 'e' || e == 'E' then
            let (minus, rest) :=
              match rest with
              | '-' :: r => (true, r)
              | '+' :: r => (false, r)
              | _ => (false, rest)
            let (ds, rest) := splitDigits rest
            if ds.isEmpty then none
            else
              let n : Int := digitsValue ds
              some (some (if minus then -n else n), rest)
          else some (none, s)
        | [] => some (none, s)
      let (exponent, s) ← exponent
      if !hasPoint && exponent.isNone then some (ofInteger negative (digitsValue whole), s)
      else
        let digits := digitsValue (whole ++ fraction)
        let e := exponent.getD 0 - fraction.length
        if digits != 0 && e + (whole.length + fraction.length : Int) > 309 then none
        else if digits == 0 || e < -400 then some (.real ⟨negative, 0, 0⟩, s)
        else some (.real ⟨negative, digits, e⟩, s)

mutual

/-- Reads a value. `depth` bounds the nesting and `fuel` the steps. -/
def readValue : Nat → Nat → List Char → Option (Json × List Char)
  | 0, _, _ => none
  | fuel + 1, depth, s =>
    match dropGaps s with
    | 'n' :: 'u' :: 'l' :: 'l' :: rest => some (.null, rest)
    | 't' :: 'r' :: 'u' :: 'e' :: rest => some (.bool true, rest)
    | 'f' :: 'a' :: 'l' :: 's' :: 'e' :: rest => some (.bool false, rest)
    | '"' :: rest => (readString (rest.length + 1) [] rest).map fun r => (.str r.1, r.2)
    | '-' :: rest => readNumber true rest
    | '[' :: rest =>
      if depth == 0 then none
      else
        match dropGaps rest with
        | ']' :: rest => some (.arr [], rest)
        | rest => readItems fuel (depth - 1) [] rest
    | '\x7b' :: rest =>
      if depth == 0 then none
      else
        match dropGaps rest with
        | '\x7d' :: rest => some (.obj [], rest)
        | rest => readMembers fuel (depth - 1) [] rest
    | rest => readNumber false rest

/-- Reads the items of an array; `acc` holds those read, latest first. -/
def readItems : Nat → Nat → List Json → List Char → Option (Json × List Char)
  | 0, _, _, _ => none
  | fuel + 1, depth, acc, s => do
    let (item, s) ← readValue fuel depth s
    match dropGaps s with
    | ',' :: rest => readItems fuel depth (item :: acc) rest
    | ']' :: rest => some (.arr (item :: acc).reverse, rest)
    | _ => none

/-- Reads the members of an object; `acc` holds those read, latest first. -/
def readMembers : Nat → Nat → List (String × Json) → List Char → Option (Json × List Char)
  | 0, _, _, _ => none
  | fuel + 1, depth, acc, s =>
    match dropGaps s with
    | '"' :: rest => do
      let (key, rest) ← readString (rest.length + 1) [] rest
      match dropGaps rest with
      | ':' :: rest =>
        let (value, rest) ← readValue fuel depth rest
        match dropGaps rest with
        | ',' :: rest => readMembers fuel depth ((key, value) :: acc) rest
        | '\x7d' :: rest => some (ofMembers ((key, value) :: acc).reverse, rest)
        | _ => none
      | _ => none
    | _ => none

end

/-- How deep arrays and objects may nest. -/
def maxDepth : Nat := 127

/-- The value of a JSON text. -/
def read? (text : String) : Option Json := do
  let s := text.toList
  let (value, rest) ← readValue (2 * s.length + 2) maxDepth s
  if (dropGaps rest).isEmpty then some value else none

end SolutionAtlas.Json
