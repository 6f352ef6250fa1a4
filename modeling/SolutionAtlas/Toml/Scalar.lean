-- SUMMARY: Reads the strings, numbers and dates of TOML.
import SolutionAtlas.Toml.Basic
import SolutionAtlas.Json.Reader
import SolutionAtlas.Text.Slice

/-!
# TOML scalars

Strings are read behind their opening quotes. Numbers and dates are cut out as a whole and then
told apart.
-/

namespace SolutionAtlas.Toml

/-- Blanks within a line. -/
def isSpace (c : Char) : Bool :=
  c == ' ' || c == '\t'

/-- Controls other than the tab may not stand in a document. -/
def isForbidden (c : Char) : Bool :=
  (c.toNat < 0x20 && c != '\t') || c.toNat == 0x7F

-- ---------------------------------------------------------------------------
-- Strings
-- ---------------------------------------------------------------------------

/-- The character with a given code point. -/
def scalar? (digits : List Char) : Option Char := do
  let n := (← digits.mapM Json.hexDigit?).foldl (fun n d => n * 16 + d) 0
  if n < 0xD800 || (0xE000 ≤ n && n < 0x110000) then some (Char.ofNat n) else none

/-- The character that a letter behind a backslash stands for. -/
def escape? : Char → Option Char
  | 'b' => some '\x08'
  | 't' => some '\t'
  | 'n' => some '\n'
  | 'f' => some '\x0c'
  | 'r' => some '\r'
  | '"' => some '"'
  | '\\' => some '\\'
  | _ => none

/-- Reads an escape behind its backslash. -/
def readEscape : List Char → Option (Char × List Char)
  | 'u' :: a :: b :: c :: d :: s => (scalar? [a, b, c, d]).map (·, s)
  | 'U' :: a :: b :: c :: d :: e :: f :: g :: h :: s =>
    (scalar? [a, b, c, d, e, f, g, h]).map (·, s)
  | c :: s => (escape? c).map (·, s)
  | [] => none

/-- Reads a string within a line behind its opening quote; `acc` holds what is read, latest first. -/
def readQuoted (escapes : Bool) (quote : Char) : Nat → List Char → List Char →
    Option (String × List Char)
  | 0, _, _ => none
  | _, _, [] => none
  | fuel + 1, acc, c :: s =>
    if c == quote then some (String.ofList acc.reverse, s)
    else if escapes && c == '\\' then do
      let (e, s) ← readEscape s
      readQuoted escapes quote fuel (e :: acc) s
    else if isForbidden c then none
    else readQuoted escapes quote fuel (c :: acc) s

/-- A line ends here, after blanks. -/
def endsLine (s : List Char) : Bool :=
  match s.dropWhile isSpace with
  | '\n' :: _ => true
  | '\r' :: '\n' :: _ => true
  | _ => false

/-- Drops blanks and line ends. -/
def dropLines : List Char → List Char
  | '\r' :: '\n' :: s => dropLines s
  | c :: s => if isSpace c || c == '\n' then dropLines s else c :: s
  | [] => []

/-- Reads a string over several lines behind its opening quotes. Up to two quotes right before the
closing ones belong to it. -/
def readLines (escapes : Bool) (quote : Char) : Nat → List Char → List Char →
    Option (String × List Char)
  | 0, _, _ => none
  | _, _, [] => none
  | fuel + 1, acc, c :: s =>
    if c == quote then
      match s with
      | a :: b :: rest =>
        if a == quote && b == quote then
          let extra := (rest.take 2).takeWhile (· == quote)
          some (String.ofList (extra ++ acc).reverse, rest.drop extra.length)
        else readLines escapes quote fuel (c :: acc) s
      | _ => none
    else if escapes && c == '\\' then
      if endsLine s then readLines escapes quote fuel acc (dropLines s)
      else do
        let (e, s) ← readEscape s
        readLines escapes quote fuel (e :: acc) s
    else if c == '\n' then readLines escapes quote fuel (c :: acc) s
    else if c == '\r' then
      match s with
      | '\n' :: s => readLines escapes quote fuel ('\n' :: acc) s
      | _ => none
    else if isForbidden c then none
    else readLines escapes quote fuel (c :: acc) s

/-- Drops the line end right behind opening quotes. -/
def dropFirstLineEnd : List Char → List Char
  | '\n' :: s => s
  | '\r' :: '\n' :: s => s
  | s => s

/-- Reads a string of any of the four kinds. -/
def readString (s : List Char) : Option (String × List Char) :=
  let fuel := s.length + 1
  match s with
  | '"' :: '"' :: '"' :: s => readLines true '"' fuel [] (dropFirstLineEnd s)
  | '\'' :: '\'' :: '\'' :: s => readLines false '\'' fuel [] (dropFirstLineEnd s)
  | '"' :: s => readQuoted true '"' fuel [] s
  | '\'' :: s => readQuoted false '\'' fuel [] s
  | _ => none

-- ---------------------------------------------------------------------------
-- Numbers
-- ---------------------------------------------------------------------------

/-- Digits of a base, with single underscores between them. -/
def digits? (base : Nat) (s : List Char) : Option Nat :=
  let groups := Text.splitChars (· == '_') s
  if groups.any (·.isEmpty) then none
  else do
    let ds ← groups.flatten.mapM Json.hexDigit?
    if ds.all (· < base) then some (ds.foldl (fun n d => n * base + d) 0) else none

/-- Decimal digits that do not begin with a zero, unless it is the only one. -/
def decimal? (s : List Char) : Option Nat :=
  match s with
  | '0' :: _ :: _ => none
  | _ => digits? 10 s

/-- Splits off a sign, and says whether it is a minus. -/
def splitSign : List Char → Bool × List Char
  | '+' :: s => (false, s)
  | '-' :: s => (true, s)
  | s => (false, s)

def integer? (s : List Char) : Option Int :=
  let found : Option Int :=
    match s with
    | '0' :: 'x' :: s => (digits? 16 s).map Int.ofNat
    | '0' :: 'o' :: s => (digits? 8 s).map Int.ofNat
    | '0' :: 'b' :: s => (digits? 2 s).map Int.ofNat
    | s =>
      let (minus, s) := splitSign s
      (decimal? s).map fun n => if minus then -(n : Int) else n
  found.filter fun n => -0x8000000000000000 ≤ n && n ≤ 0x7FFFFFFFFFFFFFFF

/-- The exponent behind an `e`. -/
def exponent? (s : List Char) : Option Int :=
  let (minus, s) := splitSign s
  (digits? 10 s).map fun n => if minus then -(n : Int) else n

/-- Cuts a text at the first character that satisfies `p`; without one there is no second part. -/
def cutAt (p : Char → Bool) (s : List Char) : List Char × Option (List Char) :=
  match s.dropWhile (!p ·) with
  | _ :: rest => (s.takeWhile (!p ·), some rest)
  | [] => (s, none)

/-- A number with a point or an exponent. -/
def fraction? (s : List Char) : Option (Option Decimal) :=
  let (minus, s) := splitSign s
  if s == ['i', 'n', 'f'] || s == ['n', 'a', 'n'] then some none
  else
    let (mantissa, exponent) := cutAt (fun c => c == 'e' || c == 'E') s
    let (whole, places) := cutAt (· == '.') mantissa
    if exponent.isNone && places.isNone then none
    else do
      let n ← decimal? whole
      let e ← (exponent.map exponent?).getD (some 0)
      match places with
      | none => return some ⟨minus, n, e⟩
      | some places =>
        let p ← digits? 10 places
        let count := (places.filter (· != '_')).length
        return some ⟨minus, n * Nat.pow 10 count + p, e - count⟩

-- ---------------------------------------------------------------------------
-- Dates
-- ---------------------------------------------------------------------------

/-- A number of exactly `count` decimal digits. -/
def fixed? (count : Nat) (s : List Char) : Option Nat :=
  if s.length == count && s.all Char.isDigit then some (Json.digitsValue s) else none

def isLeapYear (year : Nat) : Bool :=
  (year % 4 == 0 && year % 100 != 0) || year % 400 == 0

def daysIn (year month : Nat) : Nat :=
  if month == 2 then if isLeapYear year then 29 else 28
  else if [4, 6, 9, 11].contains month then 30
  else 31

/-- Year, month and day with hyphens between them. -/
def isDate (s : List Char) : Bool :=
  match (Text.splitChars (· == '-') s) with
  | [y, m, d] =>
    match fixed? 4 y, fixed? 2 m, fixed? 2 d with
    | some y, some m, some d => 1 ≤ m && m ≤ 12 && 1 ≤ d && d ≤ daysIn y m
    | _, _, _ => false
  | _ => false

/-- Hours and minutes with a colon between them. -/
def isHourMinute (s : List Char) : Bool :=
  match (Text.splitChars (· == ':') s).map (fixed? 2) with
  | [some h, some m] => h ≤ 23 && m ≤ 59
  | _ => false

/-- Hours, minutes and seconds, and perhaps a fraction of the seconds. -/
def isTime (s : List Char) : Bool :=
  let (clock, places) := cutAt (· == '.') s
  (match (Text.splitChars (· == ':') clock).map (fixed? 2) with
    | [some h, some m, some s] => h ≤ 23 && m ≤ 59 && s ≤ 60
    | _ => false) &&
  places.all fun p => !p.isEmpty && p.all Char.isDigit

/-- A time, and perhaps its distance from world time. -/
def isZonedTime (s : List Char) : Bool :=
  let (time, zone) := cutAt (fun c => c == '+' || c == '-') s
  match zone with
  | some zone => isTime time && isHourMinute zone
  | none =>
    match s.reverse with
    | 'z' :: r => isTime r.reverse
    | 'Z' :: r => isTime r.reverse
    | _ => isTime s

/-- A date, a time, or both. -/
def isDateTime (s : List Char) : Bool :=
  isDate s || isTime s ||
    (isDate (s.take 10) &&
      match s.drop 10 with
      | c :: time => (c == 'T' || c == 't' || c == ' ') && isZonedTime time
      | [] => false)

/-- Characters of numbers, dates and words. -/
def isPlain (c : Char) : Bool :=
  c.isAlphanum || ['+', '-', '.', ':', '_'].contains c

/-- Cuts out a number, a date or a word. A date goes on behind a blank when a digit follows. -/
def cutPlain (s : List Char) : List Char × List Char :=
  let word := s.takeWhile isPlain
  match s.drop word.length with
  | ' ' :: c :: rest =>
    if isDate word && c.isDigit then
      let time := (c :: rest).takeWhile isPlain
      (word ++ ' ' :: time, (c :: rest).drop time.length)
    else (word, ' ' :: c :: rest)
  | rest => (word, rest)

/-- The value of a number, a date or a word. -/
def plain? (word : List Char) : Option Toml :=
  if word == "true".toList then some (.bool true)
  else if word == "false".toList then some (.bool false)
  else
    match integer? word with
    | some n => some (.integer n)
    | none =>
      match fraction? word with
      | some d => some (.fraction d)
      | none => if isDateTime word then some (.dateTime (String.ofList word)) else none

end SolutionAtlas.Toml
