-- SUMMARY: What is written as text is read again, with the members of objects in order.
import Mathlib
import SolutionAtlas.Json.Reader
import SolutionAtlas.Proofs.Table

/-!
# JSON as text

The text of a value is read as the value itself, but for the order of members: the reader brings them
into ascending order of keys. This holds for values that nest no deeper than the reader follows, whose
numbers are natural ones of 64 bits, and whose objects have no key twice.
-/

namespace SolutionAtlas.Json

/-! ## Values without reals -/

/-- A value that nests at most to a given depth, with natural numbers of 64 bits as its only numbers,
and without an object that has a key twice. -/
inductive Plain : Nat → Json → Prop where
  | null {depth : Nat} : Plain depth .null
  | bool {depth : Nat} (b : Bool) : Plain depth (.bool b)
  | nat {depth n : Nat} (h : n ≤ 0xFFFFFFFFFFFFFFFF) : Plain depth (.int n)
  | str {depth : Nat} (s : String) : Plain depth (.str s)
  | arr {depth : Nat} {items : List Json} (h : ∀ j ∈ items, Plain depth j) :
      Plain (depth + 1) (.arr items)
  | obj {depth : Nat} {members : List (String × Json)} (h : ∀ m ∈ members, Plain depth m.2)
      (hkeys : (members.map (·.1)).Nodup) : Plain (depth + 1) (.obj members)

theorem Plain.mono {depth depth' : Nat} {j : Json} (h : Plain depth j) (hle : depth ≤ depth') :
    Plain depth' j := by
  induction h generalizing depth' with
  | null => exact .null
  | bool b => exact .bool b
  | nat hn => exact .nat hn
  | str s => exact .str s
  | arr _ ih =>
    obtain ⟨d, rfl⟩ : ∃ d, depth' = d + 1 := ⟨depth' - 1, by omega⟩
    exact .arr fun j hj => ih j hj (Nat.le_of_succ_le_succ hle)
  | obj _ hkeys ih =>
    obtain ⟨d, rfl⟩ : ∃ d, depth' = d + 1 := ⟨depth' - 1, by omega⟩
    exact .obj (fun m hm => ih m hm (Nat.le_of_succ_le_succ hle)) hkeys

/-! ## Members in order -/

mutual

/-- A value with the members of its objects in ascending order of keys. -/
def sorted : Json → Json
  | .arr items => .arr (sortedItems items)
  | .obj members => ofMembers (sortedMembers members)
  | j => j

def sortedItems : List Json → List Json
  | [] => []
  | j :: rest => sorted j :: sortedItems rest

def sortedMembers : List (String × Json) → List (String × Json)
  | [] => []
  | (k, j) :: rest => (k, sorted j) :: sortedMembers rest

end

theorem sortedItems_eq (items : List Json) : sortedItems items = items.map sorted := by
  induction items with
  | nil => rfl
  | cons j rest ih => rw [sortedItems, ih, List.map_cons]

theorem sortedMembers_eq (members : List (String × Json)) :
    sortedMembers members = members.map fun m => (m.1, sorted m.2) := by
  induction members with
  | nil => rfl
  | cons m rest ih => rw [sortedMembers, ih, List.map_cons]

/-! ## The characters of a value -/

/-- The characters by which a string holds a character. -/
def escaped (c : Char) : List Char :=
  (pushChar "" c).toList

theorem toList_pushChar (acc : String) (c : Char) :
    (pushChar acc c).toList = acc.toList ++ escaped c := by
  unfold escaped pushChar
  split <;> (try split) <;> simp [String.toList_append, String.toList_push]

def quoted (s : String) : List Char :=
  '"' :: (s.toList.flatMap escaped ++ ['"'])

theorem toList_pushString (acc s : String) : (pushString acc s).toList = acc.toList ++ quoted s := by
  have hfold (cs : List Char) (acc : String) :
      (cs.foldl pushChar acc).toList = acc.toList ++ cs.flatMap escaped := by
    induction cs generalizing acc with
    | nil => simp
    | cons c cs ih => rw [List.foldl_cons, ih, toList_pushChar, List.append_assoc, List.flatMap_cons]
  simp only [pushString, quoted, String.toList_push, hfold, List.append_assoc, List.cons_append,
    List.nil_append]

mutual

/-- The characters of the text of a value. -/
def chars : Json → List Char
  | .null => "null".toList
  | .bool b => if b then "true".toList else "false".toList
  | .int n => (toString n).toList
  | .real d => d.render.toList
  | .str s => quoted s
  | .arr items => '[' :: (itemChars true items ++ [']'])
  | .obj members => '\x7b' :: (memberChars true members ++ ['\x7d'])

/-- The items of an array with commas between them. -/
def itemChars (first : Bool) : List Json → List Char
  | [] => []
  | j :: rest => (if first then [] else [',']) ++ (chars j ++ itemChars false rest)

def memberChars (first : Bool) : List (String × Json) → List Char
  | [] => []
  | (k, j) :: rest =>
    (if first then [] else [',']) ++ (quoted k ++ ':' :: (chars j ++ memberChars false rest))

end

mutual

theorem toList_push (acc : String) (j : Json) : (push acc j).toList = acc.toList ++ chars j := by
  cases j with
  | null => simp only [push, chars, String.toList_append]
  | bool b => cases b <;> simp only [push, chars, String.toList_append] <;> rfl
  | int n => simp only [push, chars, String.toList_append]
  | real d => simp only [push, chars, String.toList_append]
  | str s => rw [push, chars, toList_pushString]
  | arr items =>
    rw [push, chars, String.toList_push, toList_pushItems, String.toList_push]
    simp
  | obj members =>
    rw [push, chars, String.toList_push, toList_pushMembers, String.toList_push]
    simp

theorem toList_pushItems (acc : String) (first : Bool) (items : List Json) :
    (pushItems acc first items).toList = acc.toList ++ itemChars first items := by
  cases items with
  | nil => rw [pushItems, itemChars, List.append_nil]
  | cons j rest =>
    rw [pushItems, itemChars, toList_pushItems, toList_push]
    cases first <;> simp [String.toList_push]

theorem toList_pushMembers (acc : String) (first : Bool) (members : List (String × Json)) :
    (pushMembers acc first members).toList = acc.toList ++ memberChars first members := by
  cases members with
  | nil => rw [pushMembers, memberChars, List.append_nil]
  | cons m rest =>
    obtain ⟨k, j⟩ := m
    rw [pushMembers, memberChars, toList_pushMembers, toList_push, String.toList_push, toList_pushString]
    cases first <;> simp [String.toList_push]

end

theorem toList_render (j : Json) : j.render.toList = chars j := by
  rw [render, toList_push]
  rfl

/-! ## Strings -/

theorem length_escaped_pos (c : Char) : 0 < (escaped c).length := by
  unfold escaped pushChar
  split <;> (try split) <;> simp [String.length_toList]

theorem hexUnit?_hex4 {n : Nat} (hn : n < 0x20) (s : List Char) :
    hexUnit? ((hex4 n).toList ++ s) = some (n, s) := by
  interval_cases n <;> rfl

/-- One character of a string is read in one step. -/
theorem readString_escaped (fuel : Nat) (acc : List Char) (c : Char) (s : List Char) :
    readString (fuel + 1) acc (escaped c ++ s) = readString fuel (c :: acc) s := by
  unfold escaped pushChar
  split
  · rfl
  · rfl
  · rfl
  · rfl
  · rfl
  · rename_i hquote hback _ _ _
    split
    · rename_i hctrl
      have hlist : ("" ++ "\\u" ++ hex4 c.toNat).toList ++ s =
          '\\' :: 'u' :: ((hex4 c.toNat).toList ++ s) := by simp
      rw [hlist, readString, escapedUnit?, hexUnit?_hex4 hctrl]
      have hlow : ¬0xD800 ≤ c.toNat := by omega
      have hlow' : ¬0xDC00 ≤ c.toNat := by omega
      simp [hlow, hlow']
    · rename_i hctrl
      have hlist : ("".push c).toList ++ s = c :: s := by simp
      rw [hlist, readString, if_neg hctrl]
      · exact hquote
      · exact fun _ hc => absurd hc hback
      · exact fun _ _ hc => absurd hc hback

theorem readString_chars {cs : List Char} {fuel : Nat} (hfuel : cs.length < fuel) (acc rest : List Char) :
    readString fuel acc (cs.flatMap escaped ++ '"' :: rest) =
      some (String.ofList (acc.reverse ++ cs), rest) := by
  induction cs generalizing fuel acc with
  | nil =>
    obtain ⟨fuel, rfl⟩ := Nat.exists_eq_add_of_lt hfuel
    simp [readString]
  | cons c cs ih =>
    obtain ⟨fuel, rfl⟩ : ∃ n, fuel = n + 1 := ⟨fuel - 1, by omega⟩
    rw [List.flatMap_cons, List.append_assoc, readString_escaped, ih (Nat.lt_of_succ_lt_succ hfuel)]
    simp

/-! ## Numbers -/

theorem isDigit_of_mem {n : Nat} : ∀ c ∈ Nat.toDigits 10 n, c.isDigit = true :=
  fun _ hc => Nat.isDigit_of_mem_toDigits (by decide) (by decide) hc

/-- A number of several digits does not start with a zero. -/
theorem head?_toDigits {n : Nat} (hn : 10 ≤ n) : (Nat.toDigits 10 n).head? ≠ some '0' := by
  induction n using Nat.strongRecOn with
  | ind n ih =>
    have hparts : Nat.toDigits 10 n = Nat.toDigits 10 (n / 10) ++ Nat.toDigits 10 (n % 10) := by
      rw [Nat.toDigits_append_toDigits (by decide) (by omega) (by omega), Nat.div_add_mod]
    rw [hparts, List.head?_append_of_ne_nil _ Nat.toDigits_ne_nil]
    by_cases hmany : 10 ≤ n / 10
    · exact ih (n / 10) (by omega) hmany
    · rw [Nat.toDigits_of_lt_base (by omega)]
      have hfirst : n / 10 < 10 := by omega
      have hpos : 0 < n / 10 := by omega
      generalize n / 10 = d at hfirst hpos
      interval_cases d <;> decide

theorem digitsValue_toDigits (n : Nat) : digitsValue (Nat.toDigits 10 n) = n := by
  have hvalue : digitsValue (Nat.toDigits 10 n) = Nat.ofDigitChars 10 (Nat.toDigits 10 n) 0 := by
    simp only [digitsValue, Nat.ofDigitChars, Nat.mul_comm]
    rfl
  rw [hvalue, Nat.ofDigitChars_ten_toDigits]

/-- What may follow a value inside a longer text. -/
def Ends (rest : List Char) : Prop :=
  ∀ c ∈ rest.head?, c = ',' ∨ c = ']' ∨ c = '\x7d'

theorem Ends.cases {rest : List Char} (h : Ends rest) :
    rest = [] ∨ ∃ tail, rest = ',' :: tail ∨ rest = ']' :: tail ∨ rest = '\x7d' :: tail := by
  cases rest with
  | nil => exact .inl rfl
  | cons c tail =>
    refine .inr ⟨tail, ?_⟩
    rcases h c rfl with rfl | rfl | rfl
    · exact .inl rfl
    · exact .inr (.inl rfl)
    · exact .inr (.inr rfl)

theorem splitDigits_append {ds rest : List Char} (hds : ∀ c ∈ ds, c.isDigit = true) (h : Ends rest) :
    splitDigits (ds ++ rest) = (ds, rest) := by
  rw [splitDigits, List.takeWhile_append_of_pos hds, List.dropWhile_append_of_pos hds]
  rcases h.cases with rfl | ⟨tail, rfl | rfl | rfl⟩ <;> simp

theorem readNumber_toDigits {n : Nat} (hn : n ≤ 0xFFFFFFFFFFFFFFFF) {rest : List Char} (h : Ends rest) :
    readNumber false (Nat.toDigits 10 n ++ rest) = some (.int n, rest) := by
  have hzero : ¬(1 < (Nat.toDigits 10 n).length ∧ (Nat.toDigits 10 n).head? = some '0') := by
    rintro ⟨hlong, hhead⟩
    refine head?_toDigits ?_ hhead
    by_contra hsmall
    rw [Nat.toDigits_of_lt_base (by omega)] at hlong
    simp at hlong
  unfold readNumber
  rw [splitDigits_append isDigit_of_mem h]
  rcases h.cases with rfl | ⟨tail, rfl | rfl | rfl⟩ <;>
    simp [Nat.toDigits_ne_nil, hzero, digitsValue_toDigits, ofInteger, hn]

/-! ## Values -/

theorem dropGaps_cons {c : Char} (h : isGap c = false) (s : List Char) : dropGaps (c :: s) = c :: s := by
  rw [dropGaps, List.dropWhile_cons, h]
  rfl

theorem ends_itemChars (items : List Json) (tail : List Char) :
    Ends (itemChars false items ++ ']' :: tail) := by
  cases items <;> simp [Ends, itemChars]

theorem ends_memberChars (members : List (String × Json)) (tail : List Char) :
    Ends (memberChars false members ++ '\x7d' :: tail) := by
  cases members <;> simp [Ends, memberChars]

theorem isGap_of_isDigit {c : Char} (h : c.isDigit = true) : isGap c = false := by
  by_contra hgap
  simp only [isGap, Bool.not_eq_false, Bool.or_eq_true, beq_iff_eq] at hgap
  rcases hgap with ((rfl | rfl) | rfl) | rfl <;> cases h

/-- The digits of a number start with none of the characters that other values start with. -/
theorem readValue_toDigits {n : Nat} (hn : n ≤ 0xFFFFFFFFFFFFFFFF) (fuel depth : Nat) {rest : List Char}
    (h : Ends rest) : readValue (fuel + 1) depth (Nat.toDigits 10 n ++ rest) = some (.int n, rest) := by
  obtain ⟨d, ds, hds⟩ := List.exists_cons_of_ne_nil (Nat.toDigits_ne_nil (n := n) (b := 10))
  have hdigit : d.isDigit = true := isDigit_of_mem d (by rw [hds]; exact List.mem_cons_self)
  rw [← readNumber_toDigits hn h, hds, List.cons_append, readValue,
    dropGaps_cons (isGap_of_isDigit hdigit)]
  split <;> first
    | rfl
    | (rename_i heq; obtain ⟨rfl, -⟩ := List.cons.inj heq; cases hdigit)

theorem toString_natCast (n : Nat) : (toString (n : Int)).toList = Nat.toDigits 10 n := by
  have hsame : toString (n : Int) = toString n := rfl
  rw [hsame, Nat.toString_eq_ofList_toDigits, String.toList_ofList]

/-- The text of a value starts neither with a blank nor with a bracket that closes a list. -/
theorem Plain.chars_eq_cons {depth : Nat} {j : Json} (h : Plain depth j) :
    ∃ c cs, chars j = c :: cs ∧ isGap c = false ∧ c ≠ ']' := by
  cases h with
  | null => exact ⟨'n', _, rfl, rfl, by decide⟩
  | bool b =>
    cases b with
    | false => exact ⟨'f', _, rfl, rfl, by decide⟩
    | true => exact ⟨'t', _, rfl, rfl, by decide⟩
  | nat hn =>
    rename_i n
    obtain ⟨d, ds, hds⟩ := List.exists_cons_of_ne_nil (Nat.toDigits_ne_nil (n := n) (b := 10))
    have hdigit : d.isDigit = true := isDigit_of_mem d (by rw [hds]; exact List.mem_cons_self)
    refine ⟨d, ds, ?_, isGap_of_isDigit hdigit, ?_⟩
    · rw [chars, toString_natCast, hds]
    · rintro rfl
      cases hdigit
  | str s => exact ⟨'"', _, rfl, rfl, by decide⟩
  | arr => exact ⟨'[', _, rfl, rfl, by decide⟩
  | obj => exact ⟨'\x7b', _, rfl, rfl, by decide⟩

section Lists

variable {fuel depth : Nat} {s rest : List Char} {item : Json} {acc : List Json}
  {macc : List (String × Json)}

theorem readItems_comma (h : readValue fuel depth s = some (item, ',' :: rest)) :
    readItems (fuel + 1) depth acc s = readItems fuel depth (item :: acc) rest := by
  rw [readItems, h]
  rfl

theorem readItems_close (h : readValue fuel depth s = some (item, ']' :: rest)) :
    readItems (fuel + 1) depth acc s = some (.arr (item :: acc).reverse, rest) := by
  rw [readItems, h]
  rfl

theorem readString_quoted (k : String) (s : List Char) :
    readString ((k.toList.flatMap escaped ++ '"' :: s).length + 1) []
      (k.toList.flatMap escaped ++ '"' :: s) = some (k, s) := by
  have hlength (cs : List Char) : cs.length ≤ (cs.flatMap escaped).length := by
    induction cs with
    | nil => exact Nat.le_refl _
    | cons c cs ih =>
      rw [List.flatMap_cons, List.length_append, List.length_cons]
      have hone := length_escaped_pos c
      omega
  rw [readString_chars, List.reverse_nil, List.nil_append, String.ofList_toList]
  have hkey := hlength k.toList
  rw [List.length_append]
  omega

theorem readMembers_comma (k : String) (h : readValue fuel depth s = some (item, ',' :: rest)) :
    readMembers (fuel + 1) depth macc (quoted k ++ ':' :: s) =
      readMembers fuel depth ((k, item) :: macc) rest := by
  have hquoted : quoted k ++ ':' :: s = '"' :: (k.toList.flatMap escaped ++ '"' :: ':' :: s) := by
    simp [quoted]
  rw [hquoted, readMembers, dropGaps_cons rfl]
  simp only [readString_quoted, Option.bind_eq_bind, Option.bind_some, dropGaps_cons (c := ':') rfl, h,
    dropGaps_cons (c := ',') rfl]

theorem readMembers_close (k : String) (h : readValue fuel depth s = some (item, '\x7d' :: rest)) :
    readMembers (fuel + 1) depth macc (quoted k ++ ':' :: s) =
      some (ofMembers ((k, item) :: macc).reverse, rest) := by
  have hquoted : quoted k ++ ':' :: s = '"' :: (k.toList.flatMap escaped ++ '"' :: ':' :: s) := by
    simp [quoted]
  rw [hquoted, readMembers, dropGaps_cons rfl]
  simp only [readString_quoted, Option.bind_eq_bind, Option.bind_some, dropGaps_cons (c := ':') rfl, h,
    dropGaps_cons (c := '\x7d') rfl]

/-- Behind an opening bracket, a value is the first of some items. -/
theorem readValue_bracket {j : Json} (h : Plain depth j) (s : List Char) :
    readValue (fuel + 1) (depth + 1) ('[' :: (chars j ++ s)) = readItems fuel depth [] (chars j ++ s) := by
  obtain ⟨c, cs, hc, hgap, hclose⟩ := h.chars_eq_cons
  rw [hc, List.cons_append, readValue, dropGaps_cons rfl]
  simp only [dropGaps_cons hgap, Nat.add_sub_cancel]
  split
  · rename_i hzero
    cases hzero
  · split
    · rename_i heq
      exact absurd (List.cons.inj heq).1 hclose
    · rfl

theorem readValue_brace (k : String) (s : List Char) :
    readValue (fuel + 1) (depth + 1) ('\x7b' :: (quoted k ++ s)) =
      readMembers fuel depth [] (quoted k ++ s) := by
  rw [quoted, List.cons_append, readValue, dropGaps_cons rfl]
  rfl

end Lists

/-- Behind an item that is read come the others. -/
theorem readItems_chars {depth : Nat} {j : Json} {rest : List Json}
    (hread : ∀ i ∈ j :: rest, ∀ fuel tail, (chars i).length < fuel → Ends tail →
      readValue fuel depth (chars i ++ tail) = some (sorted i, tail))
    {fuel : Nat} (hfuel : (chars j ++ itemChars false rest).length + 2 ≤ fuel) (acc : List Json)
    (tail : List Char) :
    readItems fuel depth acc (chars j ++ (itemChars false rest ++ ']' :: tail)) =
      some (.arr (acc.reverse ++ sortedItems (j :: rest)), tail) := by
  induction rest generalizing j fuel acc with
  | nil =>
    obtain ⟨fuel, rfl⟩ : ∃ n, fuel = n + 1 := ⟨fuel - 1, by omega⟩
    simp only [itemChars, List.append_nil, List.nil_append] at hfuel ⊢
    rw [readItems_close (hread j List.mem_cons_self fuel _ (by omega) (ends_itemChars [] tail))]
    simp [sortedItems]
  | cons i rest ih =>
    obtain ⟨fuel, rfl⟩ : ∃ n, fuel = n + 1 := ⟨fuel - 1, by omega⟩
    have hends := ends_itemChars (i :: rest) tail
    simp only [itemChars, Bool.false_eq_true, if_false, List.length_append, List.length_cons,
      List.append_assoc, List.cons_append, List.nil_append] at hfuel hends ⊢
    rw [readItems_comma (hread j List.mem_cons_self fuel _ (by omega) hends),
      ih (fun k hk => hread k (List.mem_cons_of_mem _ hk)) (by simp only [List.length_append]; omega)]
    simp [sortedItems]

theorem readMembers_chars {depth : Nat} {m : String × Json} {rest : List (String × Json)}
    (hread : ∀ i ∈ m :: rest, ∀ fuel tail, (chars i.2).length < fuel → Ends tail →
      readValue fuel depth (chars i.2 ++ tail) = some (sorted i.2, tail))
    {fuel : Nat} (hfuel : (chars m.2 ++ memberChars false rest).length + 2 ≤ fuel)
    (acc : List (String × Json)) (tail : List Char) :
    readMembers fuel depth acc
        (quoted m.1 ++ ':' :: (chars m.2 ++ (memberChars false rest ++ '\x7d' :: tail))) =
      some (ofMembers (acc.reverse ++ sortedMembers (m :: rest)), tail) := by
  induction rest generalizing m fuel acc with
  | nil =>
    obtain ⟨fuel, rfl⟩ : ∃ n, fuel = n + 1 := ⟨fuel - 1, by omega⟩
    simp only [memberChars, List.append_nil, List.nil_append] at hfuel ⊢
    rw [readMembers_close m.1
      (hread m List.mem_cons_self fuel _ (by omega) (ends_memberChars [] tail))]
    simp [sortedMembers]
  | cons i rest ih =>
    obtain ⟨fuel, rfl⟩ : ∃ n, fuel = n + 1 := ⟨fuel - 1, by omega⟩
    have hends := ends_memberChars (i :: rest) tail
    simp only [memberChars, Bool.false_eq_true, if_false, List.length_append, List.length_cons,
      List.append_assoc, List.cons_append, List.nil_append] at hfuel hends ⊢
    rw [readMembers_comma m.1 (hread m List.mem_cons_self fuel _ (by omega) hends),
      ih (fun k hk => hread k (List.mem_cons_of_mem _ hk)) (by simp only [List.length_append]; omega)]
    simp [sortedMembers]

/-- The text of a value is read as the value with the members of its objects in order. -/
theorem readValue_chars {depth : Nat} {j : Json} (h : Plain depth j) :
    ∀ fuel tail, (chars j).length < fuel → Ends tail →
      readValue fuel depth (chars j ++ tail) = some (sorted j, tail) := by
  induction h with
  | null =>
    intro fuel tail hfuel _
    obtain ⟨fuel, rfl⟩ : ∃ n, fuel = n + 1 := ⟨fuel - 1, by omega⟩
    rfl
  | bool b =>
    intro fuel tail hfuel _
    obtain ⟨fuel, rfl⟩ : ∃ n, fuel = n + 1 := ⟨fuel - 1, by omega⟩
    cases b <;> rfl
  | nat hn =>
    intro fuel tail hfuel htail
    obtain ⟨fuel, rfl⟩ : ∃ n, fuel = n + 1 := ⟨fuel - 1, by omega⟩
    rw [chars, toString_natCast, readValue_toDigits hn fuel _ htail]
    rfl
  | str s =>
    intro fuel tail hfuel _
    obtain ⟨fuel, rfl⟩ : ∃ n, fuel = n + 1 := ⟨fuel - 1, by omega⟩
    have hquoted : chars (.str s) ++ tail = '"' :: (s.toList.flatMap escaped ++ '"' :: tail) := by
      simp [chars, quoted]
    rw [hquoted, readValue, dropGaps_cons rfl]
    simp only [readString_quoted, Option.map_some]
    rfl
  | @arr depth items h ih =>
    intro fuel tail hfuel _
    obtain ⟨fuel, rfl⟩ : ∃ n, fuel = n + 1 := ⟨fuel - 1, by omega⟩
    cases items with
    | nil => rfl
    | cons j rest =>
      simp only [chars, itemChars, if_true, List.nil_append, List.cons_append, List.append_assoc,
        List.length_cons, List.length_append] at hfuel ⊢
      rw [readValue_bracket (h j List.mem_cons_self), readItems_chars ih]
      · rfl
      · rw [List.length_append]
        omega
  | @obj depth members h hkeys ih =>
    intro fuel tail hfuel _
    obtain ⟨fuel, rfl⟩ : ∃ n, fuel = n + 1 := ⟨fuel - 1, by omega⟩
    cases members with
    | nil => rfl
    | cons m rest =>
      obtain ⟨k, j⟩ := m
      simp only [chars, memberChars, if_true, List.nil_append, List.cons_append, List.append_assoc,
        List.length_cons, List.length_append] at hfuel ⊢
      rw [readValue_brace, readMembers_chars (m := (k, j)) ih]
      · rfl
      · change (chars j ++ memberChars false rest).length + 2 ≤ fuel
        rw [List.length_append]
        omega

/-- Reading a text that was written gives the value that was written, with the members of its objects in
order. -/
theorem read?_render {j : Json} (h : Plain maxDepth j) : read? j.render = some (sorted j) := by
  have hread := readValue_chars h (2 * (chars j).length + 2) [] (by omega) (fun _ hc => nomatch hc)
  rw [List.append_nil] at hread
  simp only [read?, toList_render, hread, Option.bind_eq_bind, Option.bind_some]
  rfl

end SolutionAtlas.Json
