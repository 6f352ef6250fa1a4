-- SUMMARY: Types that differ in their layout only have one canonical spelling, and it is its own.
import Mathlib
import SolutionAtlas.Proofs.CSharp.Overloads

/-!
# Layout of types

All that `compact` reads of a text are its characters other than blanks, each with a mark that tells whether blanks
stand before it. Where it puts spaces is told by such marks again: these are the settled marks of the text, and
its spelling says no more and no less than they do.
-/

namespace SolutionAtlas.CSharp

/-! ## Marks -/

/-- The characters of a text other than blanks. Each is marked if blanks stand before it; `gap` says that some stand
before the text. -/
def marks (gap : Bool) : List Char → List (Bool × Char)
  | [] => []
  | c :: s => if Text.isBlank c then marks true s else (gap, c) :: marks false s

/-- The marks of the canonical spelling: a character is marked where a space belongs before it. -/
def settle (prev : Option Char) : List (Bool × Char) → List (Bool × Char)
  | [] => []
  | (gap, c) :: ms => (needsSpace prev gap c, c) :: settle (some c) ms

/-- Spells marked characters, with a space where one belongs. -/
def spell (prev : Option Char) : List (Bool × Char) → List Char
  | [] => []
  | (gap, c) :: ms =>
    if needsSpace prev gap c then ' ' :: c :: spell (some c) ms else c :: spell (some c) ms

section Marks

variable {gap gap' : Bool} {prev : Option Char} {a b c : Char} {s between : List Char} {ms : List (Bool × Char)}

theorem marks_of_isBlank (h : Text.isBlank c = true) : marks gap (c :: s) = marks true s := by
  rw [marks, if_pos h]

theorem marks_of_not_isBlank (h : Text.isBlank c = false) : marks gap (c :: s) = (gap, c) :: marks false s := by
  rw [marks, if_neg (Bool.eq_false_iff.mp h)]

/-- The canonical spelling of a text is that of its marks. -/
theorem compactFrom_eq_spell (prev : Option Char) (gap : Bool) (s : List Char) :
    compactFrom prev gap s = spell prev (marks gap s) := by
  induction s generalizing prev gap with
  | nil => rfl
  | cons c s ih =>
    rw [compactFrom, marks]
    split
    · exact ih prev true
    · rw [spell, ih]

theorem map_snd_marks (gap : Bool) (s : List Char) : (marks gap s).map Prod.snd = s.filter (!Text.isBlank ·) := by
  induction s generalizing gap with
  | nil => rfl
  | cons c s ih =>
    cases h : Text.isBlank c with
    | true => rw [marks_of_isBlank h, ih, List.filter_cons_of_neg (by simp [h])]
    | false => rw [marks_of_not_isBlank h, List.map_cons, ih, List.filter_cons_of_pos (by simp [h])]

theorem isBlank_of_mem_marks {m : Bool × Char} (h : m ∈ marks gap s) : Text.isBlank m.2 = false := by
  have hmem : m.2 ∈ s.filter (!Text.isBlank ·) := map_snd_marks gap s ▸ List.mem_map_of_mem h
  simpa using (List.mem_filter.mp hmem).2

/-- Behind a character other than a blank, only what follows matters. -/
theorem marks_append_cons (h : Text.isBlank a = false) (gap : Bool) (u v : List Char) :
    marks gap (u ++ a :: v) = marks gap (u ++ [a]) ++ marks false v := by
  induction u generalizing gap with
  | nil => rw [List.nil_append, List.nil_append, marks_of_not_isBlank h, marks_of_not_isBlank h]; rfl
  | cons c u ih =>
    rw [List.cons_append, List.cons_append]
    cases hc : Text.isBlank c with
    | true => rw [marks_of_isBlank hc, marks_of_isBlank hc, ih]
    | false => rw [marks_of_not_isBlank hc, marks_of_not_isBlank hc, ih, List.cons_append]

theorem marks_blanks_append (hbetween : ∀ c ∈ between, Text.isBlank c = true) (hb : Text.isBlank b = false)
    (gap : Bool) (v : List Char) :
    marks gap (between ++ b :: v) = (gap || !between.isEmpty, b) :: marks false v := by
  induction between generalizing gap with
  | nil => rw [List.nil_append, marks_of_not_isBlank hb, List.isEmpty_nil, Bool.not_true, Bool.or_false]
  | cons c between ih =>
    obtain ⟨hc, hlater⟩ := List.forall_mem_cons.mp hbetween
    rw [List.cons_append, marks_of_isBlank hc, ih hlater]
    simp

/-- What is before the first marked character are blanks. -/
theorem exists_blanks_of_marks (h : marks gap s = (gap', b) :: ms) :
    ∃ between v, s = between ++ b :: v ∧ (∀ c ∈ between, Text.isBlank c = true) ∧ Text.isBlank b = false ∧
      gap' = (gap || !between.isEmpty) ∧ ms = marks false v := by
  induction s generalizing gap with
  | nil => cases h
  | cons c s ih =>
    cases hc : Text.isBlank c with
    | true =>
      rw [marks_of_isBlank hc] at h
      obtain ⟨between, v, rfl, hbetween, hb, hgap, hms⟩ := ih h
      exact ⟨c :: between, v, rfl, List.forall_mem_cons.mpr ⟨hc, hbetween⟩, hb, by simpa using hgap, hms⟩
    | false =>
      rw [marks_of_not_isBlank hc] at h
      cases h
      exact ⟨[], s, rfl, by simp, hc, by simp, rfl⟩

/-! ## The spelling of marks -/

/-- A spelling has the settled marks of what it spells. -/
theorem marks_spell (h : ∀ m ∈ ms, Text.isBlank m.2 = false) : marks false (spell prev ms) = settle prev ms := by
  induction ms generalizing prev with
  | nil => rfl
  | cons m ms ih =>
    obtain ⟨gap, c⟩ := m
    obtain ⟨hc, hlater⟩ := List.forall_mem_cons.mp h
    rw [spell, settle]
    cases hspace : needsSpace prev gap c with
    | true => rw [if_pos rfl, marks_of_isBlank (by decide), marks_of_not_isBlank hc, ih hlater]
    | false => rw [if_neg Bool.false_ne_true, marks_of_not_isBlank hc, ih hlater]

theorem needsSpace_comma (gap : Bool) (c : Char) : needsSpace (some ',') gap c = (c != ',' && c != ']') :=
  rfl

theorem needsSpace_of_ne (h : a ≠ ',') (gap : Bool) (c : Char) :
    needsSpace (some a) gap c = (gap && (isTypeWordPart a && isTypeWordPart c)) := by
  unfold needsSpace
  split
  · contradiction
  · rename_i heq
    exact absurd (Option.some.inj heq) h
  · rename_i heq
    rw [Option.some.inj heq, Bool.and_assoc]

/-- Where a space belongs, it still does once it is there. -/
theorem needsSpace_needsSpace (prev : Option Char) (gap : Bool) (c : Char) :
    needsSpace prev (needsSpace prev gap c) c = needsSpace prev gap c := by
  cases prev with
  | none => rfl
  | some p =>
    by_cases hp : p = ','
    · rw [hp, needsSpace_comma, needsSpace_comma]
    · rw [needsSpace_of_ne hp, needsSpace_of_ne hp, Bool.and_assoc, Bool.and_self]

theorem spell_settle (prev : Option Char) (ms : List (Bool × Char)) : spell prev (settle prev ms) = spell prev ms := by
  induction ms generalizing prev with
  | nil => rfl
  | cons m ms ih => rw [settle, spell, spell, needsSpace_needsSpace, ih]

theorem map_snd_settle (prev : Option Char) (ms : List (Bool × Char)) :
    (settle prev ms).map Prod.snd = ms.map Prod.snd := by
  induction ms generalizing prev with
  | nil => rfl
  | cons m ms ih => rw [settle, List.map_cons, List.map_cons, ih]

theorem marks_spell_marks (prev : Option Char) (s : List Char) :
    marks false (spell prev (marks false s)) = settle prev (marks false s) :=
  marks_spell fun _ => isBlank_of_mem_marks

/-- Texts are spelled alike exactly if their settled marks are the same. -/
theorem spell_marks_inj {t : List Char} :
    spell prev (marks false s) = spell prev (marks false t) ↔
      settle prev (marks false s) = settle prev (marks false t) := by
  constructor
  · intro h
    rw [← marks_spell_marks, ← marks_spell_marks, h]
  · intro h
    rw [← spell_settle, h, spell_settle]

end Marks

/-! ## Characters side by side -/

/-- `a` and `b` are characters of a text other than blanks, with `n` such characters in front of them and nothing but
the blanks `between` from one to the other. -/
structure Adjacent (s : List Char) (n : Nat) (a b : Char) (between : List Char) : Prop where
  not_isBlank : Text.isBlank a = false ∧ Text.isBlank b = false
  isBlank : ∀ c ∈ between, Text.isBlank c = true
  exists_eq : ∃ u v, s = u ++ a :: (between ++ b :: v) ∧ (u.filter (!Text.isBlank ·)).length = n

section Adjacent

variable {s t between : List Char} {n : Nat} {a b : Char} {gap gap₀ gap₁ : Bool}

/-- Characters side by side are marked one behind the other. -/
theorem Adjacent.getElem?_marks (h : Adjacent s n a b between) :
    (∃ gap, (marks false s)[n]? = some (gap, a)) ∧ (marks false s)[n + 1]? = some (!between.isEmpty, b) := by
  obtain ⟨ha, hb⟩ := h.not_isBlank
  obtain ⟨u, v, rfl, rfl⟩ := h.exists_eq
  have hfront : (marks false (u ++ [a])).map Prod.snd = u.filter (!Text.isBlank ·) ++ [a] := by
    rw [map_snd_marks, List.filter_append, List.filter_singleton, ha]
    rfl
  have hlength : (marks false (u ++ [a])).length = (u.filter (!Text.isBlank ·)).length + 1 := by
    simpa using congrArg List.length hfront
  have hlast : ((marks false (u ++ [a]))[(u.filter (!Text.isBlank ·)).length]?).map Prod.snd = some a := by
    rw [← List.getElem?_map, hfront, List.getElem?_concat_length]
  rw [marks_append_cons ha, marks_blanks_append h.isBlank hb, Bool.false_or]
  constructor
  · obtain ⟨⟨gap, a'⟩, hm, rfl⟩ := Option.map_eq_some_iff.mp hlast
    exact ⟨gap, by rw [List.getElem?_append_left (by omega), hm]⟩
  · rw [← hlength, List.getElem?_append_right (Nat.le_refl _), Nat.sub_self]
    rfl

theorem adjacent_of_getElem?_marks (h₀ : (marks gap s)[n]? = some (gap₀, a))
    (h₁ : (marks gap s)[n + 1]? = some (gap₁, b)) :
    ∃ between, Adjacent s n a b between ∧ gap₁ = !between.isEmpty := by
  induction s generalizing gap n with
  | nil => cases h₀
  | cons c s ih =>
    cases hc : Text.isBlank c with
    | true =>
      rw [marks_of_isBlank hc] at h₀ h₁
      obtain ⟨between, hadjacent, hgap⟩ := ih h₀ h₁
      obtain ⟨u, v, rfl, hn⟩ := hadjacent.exists_eq
      refine ⟨between, ⟨hadjacent.not_isBlank, hadjacent.isBlank, c :: u, v, rfl, ?_⟩, hgap⟩
      rw [List.filter_cons_of_neg (by simp [hc]), hn]
    | false =>
      rw [marks_of_not_isBlank hc] at h₀ h₁
      rw [List.getElem?_cons_succ] at h₁
      cases n with
      | zero =>
        obtain ⟨-, rfl⟩ := Prod.mk.inj (Option.some.inj h₀)
        cases hms : marks false s with
        | nil => rw [hms] at h₁; cases h₁
        | cons m ms =>
          rw [hms, List.getElem?_cons_zero, Option.some.injEq] at h₁
          rw [h₁] at hms
          obtain ⟨between, v, rfl, hbetween, hb, hgap, -⟩ := exists_blanks_of_marks hms
          exact ⟨between, ⟨⟨hc, hb⟩, hbetween, [], v, rfl, rfl⟩, hgap⟩
      | succ n =>
        obtain ⟨between, hadjacent, hgap⟩ := ih h₀ h₁
        obtain ⟨u, v, rfl, hn⟩ := hadjacent.exists_eq
        refine ⟨between, ⟨hadjacent.not_isBlank, hadjacent.isBlank, c :: u, v, rfl, ?_⟩, hgap⟩
        rw [List.filter_cons_of_pos (by simp [hc]), List.length_cons, hn]

end Adjacent

/-! ## Layout -/

/-- The texts have the same characters other than blanks, and between two parts of words that stand side by side,
there are blanks in both or in neither. -/
structure Relaid (s t : String) : Prop where
  unspaced_eq : unspaced s = unspaced t
  gap_iff : ∀ {n a b between between'}, Adjacent s.toList n a b between → Adjacent t.toList n a b between' →
    isTypeWordPart a = true → isTypeWordPart b = true → (between = [] ↔ between' = [])

section Settled

variable {prev : Option Char} {gap : Bool} {a : Char} {ms : List (Bool × Char)} {n : Nat}

theorem getElem?_settle_zero : (settle none ms)[0]? = (ms[0]?.map Prod.snd).map fun c => (false, c) := by
  cases ms <;> rfl

theorem getElem?_settle_of_none (h : ms[n]? = none) : (settle prev ms)[n + 1]? = none := by
  have hlength : (settle prev ms).length = ms.length := by
    simpa using congrArg List.length (map_snd_settle prev ms)
  rw [List.getElem?_eq_none_iff] at h ⊢
  omega

theorem getElem?_settle_succ (h : ms[n]? = some (gap, a)) :
    (settle prev ms)[n + 1]? = ms[n + 1]?.map fun m => (needsSpace (some a) m.1 m.2, m.2) := by
  induction n generalizing prev ms with
  | zero =>
    cases ms with
    | nil => cases h
    | cons m ms =>
      cases h
      cases ms <;> rfl
  | succ n ih =>
    cases ms with
    | nil => cases h
    | cons m ms => exact ih h

end Settled

section Relaid

variable {s t : String} {n : Nat} {a b : Char}

theorem map_snd_marks_toList (s : String) : (marks false s.toList).map Prod.snd = unspaced s :=
  map_snd_marks false s.toList

/-- A space belongs between two characters in both texts or in neither. -/
theorem Relaid.needsSpace_eq {between between' : List Char} (h : Relaid s t) (hs : Adjacent s.toList n a b between)
    (ht : Adjacent t.toList n a b between') :
    needsSpace (some a) (!between.isEmpty) b = needsSpace (some a) (!between'.isEmpty) b := by
  by_cases hcomma : a = ','
  · rw [hcomma, needsSpace_comma, needsSpace_comma]
  · rw [needsSpace_of_ne hcomma, needsSpace_of_ne hcomma]
    cases hwords : isTypeWordPart a && isTypeWordPart b with
    | false => rw [Bool.and_false, Bool.and_false]
    | true =>
      obtain ⟨ha, hb⟩ := Bool.and_eq_true_iff.mp hwords
      have hempty : between.isEmpty = between'.isEmpty := by
        rw [Bool.eq_iff_iff, List.isEmpty_iff, List.isEmpty_iff]
        exact h.gap_iff hs ht ha hb
      rw [hempty]

theorem Relaid.settle_eq (h : Relaid s t) :
    settle none (marks false s.toList) = settle none (marks false t.toList) := by
  have hsame (n : Nat) : (marks false s.toList)[n]?.map Prod.snd = (marks false t.toList)[n]?.map Prod.snd := by
    rw [← List.getElem?_map, ← List.getElem?_map, map_snd_marks_toList, map_snd_marks_toList, h.unspaced_eq]
  have hmark {n : Nat} {gap : Bool} {a : Char} (hn : (marks false s.toList)[n]? = some (gap, a)) :
      ∃ gap', (marks false t.toList)[n]? = some (gap', a) := by
    have hchar := (hsame n).symm
    rw [hn, Option.map_some] at hchar
    obtain ⟨⟨gap', a'⟩, hm, rfl⟩ := Option.map_eq_some_iff.mp hchar
    exact ⟨gap', hm⟩
  have hnone {n : Nat} (hn : (marks false s.toList)[n]? = none) : (marks false t.toList)[n]? = none := by
    simpa [hn] using (hsame n).symm
  -- What a mark is settled to depends on the mark in front of it, so each character is taken with the one before.
  refine List.ext_getElem? fun n => ?_
  cases n with
  | zero => rw [getElem?_settle_zero, getElem?_settle_zero, hsame]
  | succ n =>
    cases hfirst : (marks false s.toList)[n]? with
    | none => rw [getElem?_settle_of_none hfirst, getElem?_settle_of_none (hnone hfirst)]
    | some m =>
      obtain ⟨gap, a⟩ := m
      obtain ⟨gap', hfirst'⟩ := hmark hfirst
      rw [getElem?_settle_succ hfirst, getElem?_settle_succ hfirst']
      cases hsecond : (marks false s.toList)[n + 1]? with
      | none => rw [hnone hsecond]
      | some m =>
        obtain ⟨gap₁, b⟩ := m
        obtain ⟨gap₁', hsecond'⟩ := hmark hsecond
        obtain ⟨between, hs, rfl⟩ := adjacent_of_getElem?_marks hfirst hsecond
        obtain ⟨between', ht, rfl⟩ := adjacent_of_getElem?_marks hfirst' hsecond'
        rw [hsecond', Option.map_some, Option.map_some, h.needsSpace_eq hs ht]

theorem relaid_of_settle_eq (h : settle none (marks false s.toList) = settle none (marks false t.toList)) :
    Relaid s t := by
  constructor
  · rw [← map_snd_marks_toList, ← map_snd_marks_toList, ← map_snd_settle none, h, map_snd_settle]
  · intro n a b between between' hs ht ha hb
    obtain ⟨⟨gap, hfirst⟩, hsecond⟩ := hs.getElem?_marks
    obtain ⟨⟨gap', hfirst'⟩, hsecond'⟩ := ht.getElem?_marks
    have hspace : needsSpace (some a) (!between.isEmpty) b = needsSpace (some a) (!between'.isEmpty) b := by
      have hsettled := congrArg (·[n + 1]?) h
      simp only [getElem?_settle_succ hfirst, getElem?_settle_succ hfirst', hsecond, hsecond'] at hsettled
      exact (Prod.mk.inj (Option.some.inj hsettled)).1
    have hcomma : a ≠ ',' := by
      rintro rfl
      cases ha
    rw [needsSpace_of_ne hcomma, needsSpace_of_ne hcomma, ha, hb] at hspace
    rw [← List.isEmpty_iff, ← List.isEmpty_iff, ← Bool.eq_iff_iff]
    simpa using hspace

end Relaid

/-! ## Single spaces -/

/-- Each blank in a text is a space, and it stands between two characters that are no blanks. -/
def SingleSpaced (s : List Char) : Prop :=
  ∀ u c v, s = u ++ c :: v → Text.isBlank c = true →
    c = ' ' ∧ (∃ a, u.getLast? = some a ∧ Text.isBlank a = false) ∧
      ∃ b, v.head? = some b ∧ Text.isBlank b = false

namespace SingleSpaced

variable {c d : Char} {s : List Char} {ms : List (Bool × Char)}

theorem cons (hc : Text.isBlank c = false) (h : SingleSpaced s) : SingleSpaced (c :: s) := by
  intro u e v huv he
  cases u with
  | nil =>
    cases huv
    exact absurd he (Bool.eq_false_iff.mp hc)
  | cons x u =>
    obtain ⟨rfl, htail⟩ := List.cons.inj huv
    obtain ⟨hspace, ⟨a, hlast, ha⟩, hafter⟩ := h u e v htail he
    exact ⟨hspace, ⟨a, by rw [List.getLast?_cons, hlast]; rfl, ha⟩, hafter⟩

/-- Between two characters there may be a space. -/
theorem cons_space (hc : Text.isBlank c = false) (h : SingleSpaced (d :: s)) (hd : Text.isBlank d = false) :
    SingleSpaced (c :: ' ' :: d :: s) := by
  intro u e v huv he
  cases u with
  | nil =>
    cases huv
    exact absurd he (Bool.eq_false_iff.mp hc)
  | cons x u =>
    obtain ⟨-, htail⟩ := List.cons.inj huv
    cases u with
    | nil =>
      cases huv
      exact ⟨rfl, ⟨c, rfl, hc⟩, d, rfl, hd⟩
    | cons y u =>
      obtain ⟨hspace, ⟨a, hlast, ha⟩, hafter⟩ := h u e v (List.cons.inj htail).2 he
      exact ⟨hspace, ⟨a, by rw [List.getLast?_cons_cons, List.getLast?_cons, hlast]; rfl, ha⟩, hafter⟩

theorem cons_spell (hc : Text.isBlank c = false) (hms : ∀ m ∈ ms, Text.isBlank m.2 = false) :
    SingleSpaced (c :: spell (some c) ms) := by
  have hnil : SingleSpaced [] := fun u e v huv => absurd huv (by simp)
  induction ms generalizing c with
  | nil => exact hnil.cons hc
  | cons m ms ih =>
    obtain ⟨hm, hlater⟩ := List.forall_mem_cons.mp hms
    rw [spell]
    split
    · exact (ih hm hlater).cons_space hc hm
    · exact (ih hm hlater).cons hc

theorem spell_none (hms : ∀ m ∈ ms, Text.isBlank m.2 = false) : SingleSpaced (spell none ms) := by
  cases ms with
  | nil => exact fun u e v huv => absurd huv (by simp [spell])
  | cons m ms =>
    obtain ⟨hm, hlater⟩ := List.forall_mem_cons.mp hms
    exact cons_spell hm hlater

end SingleSpaced

/-! ## Ids and signatures -/

section Compact

variable {s t : String}

theorem toList_compact (s : String) : (compact s).toList = spell none (marks false s.toList) := by
  rw [compact, String.toList_ofList, compactFrom_eq_spell]

theorem marks_compact (s : String) : marks false (compact s).toList = settle none (marks false s.toList) := by
  rw [toList_compact, marks_spell_marks]

/-- Texts have one spelling exactly if they differ in their layout at most. -/
theorem compact_eq_iff : compact s = compact t ↔ Relaid s t := by
  rw [← String.toList_inj, toList_compact, toList_compact, spell_marks_inj]
  exact ⟨relaid_of_settle_eq, Relaid.settle_eq⟩

theorem compact_compact (s : String) : compact (compact s) = compact s := by
  rw [← String.toList_inj, toList_compact, marks_compact, spell_settle, toList_compact]

theorem unspaced_compact (s : String) : unspaced (compact s) = unspaced s := by
  rw [unspaced, ← map_snd_marks false, marks_compact, map_snd_settle, map_snd_marks, unspaced]

theorem singleSpaced_compact (s : String) : SingleSpaced (compact s).toList := by
  rw [toList_compact]
  exact .spell_none fun m => isBlank_of_mem_marks

end Compact

/-- The parameters are written alike up to the layout of their types. -/
structure ParameterSyntax.Relaid (p q : ParameterSyntax) : Prop where
  modifiers_eq : p.modifiers = q.modifiers
  name_eq : p.name = q.name
  typeText : CSharp.Relaid p.typeText q.typeText

/-- What the declarations of members name is the same up to the layout of the types. -/
inductive MemberShape.Relaid : MemberShape → MemberShape → Prop
  | method {returns returns' name : String} {typeParameters : List String} {ps qs : List ParameterSyntax}
      {body body' : Option Body} (type : CSharp.Relaid returns returns')
      (parameters : List.Forall₂ ParameterSyntax.Relaid ps qs) :
      Relaid (.method returns name typeParameters ps body) (.method returns' name typeParameters qs body')
  | constructor {name : String} {ps qs : List ParameterSyntax} {body body' : Option Body}
      (parameters : List.Forall₂ ParameterSyntax.Relaid ps qs) :
      Relaid (.constructor name ps body) (.constructor name qs body')
  | property {text text' name : String} {body body' : Option Body} (type : CSharp.Relaid text text') :
      Relaid (.property text name body) (.property text' name body')
  | event {text text' name : String} (type : CSharp.Relaid text text') : Relaid (.event text name) (.event text' name)
  | fields {text text' : String} {ds ds' : List Declarator} (type : CSharp.Relaid text text')
      (names : ds.map (·.name) = ds'.map (·.name)) : Relaid (.fields text ds) (.fields text' ds')
  | eventFields {text text' : String} {ds ds' : List Declarator} (type : CSharp.Relaid text text')
      (names : ds.map (·.name) = ds'.map (·.name)) : Relaid (.eventFields text ds) (.eventFields text' ds')
  | enumMember (name : String) : Relaid (.enumMember name) (.enumMember name)

/-- What the outline of a member shows of its types. -/
def OutlineMember.shown (m : OutlineMember) : String × String × Option String :=
  (m.id, m.signature, m.returnType)

section Shown

variable {p q : ParameterSyntax} {ps qs : List ParameterSyntax}

theorem ParameterSyntax.Relaid.typeName_eq (h : p.Relaid q) : p.parameter.typeName = q.parameter.typeName :=
  compact_eq_iff.mpr h.typeText

theorem map_eq_of_relaid {α : Type} {f : Parameter → α} (h : List.Forall₂ ParameterSyntax.Relaid ps qs)
    (hf : ∀ p q : Parameter, p.modifiers = q.modifiers → p.typeName = q.typeName → f p = f q) :
    (ps.map (·.parameter)).map f = (qs.map (·.parameter)).map f := by
  induction h with
  | nil => rfl
  | cons hpq _ ih =>
    rw [List.map_cons, List.map_cons, List.map_cons, List.map_cons, ih,
      hf _ _ hpq.modifiers_eq hpq.typeName_eq]

theorem idParameterList_eq_of_relaid (h : List.Forall₂ ParameterSyntax.Relaid ps qs) :
    idParameterList (ps.map (·.parameter)) = idParameterList (qs.map (·.parameter)) := by
  have hlist (xs : List Parameter) : idParameterList xs =
      if (xs.map idParameter).isEmpty then "" else "(" ++ ",".intercalate (xs.map idParameter) ++ ")" := by
    rw [List.isEmpty_map]
    rfl
  rw [hlist, hlist, map_eq_of_relaid h fun p q hmodifiers htype => by rw [idParameter, idParameter, hmodifiers, htype]]

theorem displayParameterList_eq_of_relaid (h : List.Forall₂ ParameterSyntax.Relaid ps qs) :
    displayParameterList (ps.map (·.parameter)) = displayParameterList (qs.map (·.parameter)) := by
  rw [displayParameterList, displayParameterList, map_eq_of_relaid h fun p q hmodifiers htype => by
    rw [Parameter.displayType, Parameter.displayType, hmodifiers, htype]]

theorem map_eq_of_names {α : Type} {ds ds' : List Declarator} (h : ds.map (·.name) = ds'.map (·.name))
    (f : String → α) : ds.map (fun d => f d.name) = ds'.map fun d => f d.name := by
  have hnames := congrArg (List.map f) h
  rwa [List.map_map, List.map_map] at hnames

/-- Members that differ in the layout of their types at most have the same ids, signatures and types. -/
theorem MemberShape.Relaid.shown_eq {syn syn' : MemberSyntax} (h : syn.shape.Relaid syn'.shape)
    (hmodifiers : syn.modifiers = syn'.modifiers) (container : Container) (doc doc' : Option String) :
    (syn.members container doc).map (·.shown) = (syn'.members container doc').map (·.shown) := by
  obtain ⟨attributes, modifiers, shape, span⟩ := syn
  obtain ⟨attributes', modifiers', shape', span'⟩ := syn'
  obtain rfl : modifiers = modifiers' := hmodifiers
  cases h with
  | method type parameters =>
    simp only [MemberSyntax.members, List.map_singleton, OutlineMember.shown, idParameterList_eq_of_relaid parameters,
      displayParameterList_eq_of_relaid parameters, compact_eq_iff.mpr type]
  | constructor parameters =>
    simp only [MemberSyntax.members, List.map_singleton, OutlineMember.shown, idParameterList_eq_of_relaid parameters,
      displayParameterList_eq_of_relaid parameters]
  | property type => simp only [MemberSyntax.members, List.map_singleton, OutlineMember.shown, compact_eq_iff.mpr type]
  | event type => simp only [MemberSyntax.members, List.map_singleton, OutlineMember.shown, compact_eq_iff.mpr type]
  | fields type names =>
    simp only [MemberSyntax.members, List.map_map, compact_eq_iff.mpr type]
    exact map_eq_of_names names fun name =>
      (SymbolKind.field.idLead ++ container.idPath ++ "." ++ name, container.displayPath ++ "." ++ name,
        some (compact _))
  | eventFields type names =>
    simp only [MemberSyntax.members, List.map_map, compact_eq_iff.mpr type]
    exact map_eq_of_names names fun name =>
      (SymbolKind.event.idLead ++ container.idPath ++ "." ++ name, container.displayPath ++ "." ++ name,
        some (compact _))
  | enumMember name => rfl

theorem splitBases_eq_of_relaid {bases bases' : List String} (h : List.Forall₂ Relaid bases bases')
    (kind : SymbolKind) : splitBases kind bases = splitBases kind bases' := by
  have hnames : bases.map normalizeTypeName = bases'.map normalizeTypeName := by
    induction h with
    | nil => rfl
    | cons hname _ ih =>
      rw [List.map_cons, List.map_cons, ih, normalizeTypeName, normalizeTypeName, compact_eq_iff.mpr hname]
  unfold splitBases
  rw [hnames]

end Shown

/-- A type is spelled with its characters and single spaces only, its spelling is spelled as it is, and two types are
spelled alike exactly if they differ in their layout at most. So what an outline shows of members, of bases and of
namespaces does not depend on the layout of the types in the source. -/
theorem compact_canonical :
    (∀ s, unspaced (compact s) = unspaced s ∧ SingleSpaced (compact s).toList) ∧
      (∀ s, compact (compact s) = compact s) ∧
      (∀ s t, compact s = compact t ↔ Relaid s t) ∧
      (∀ (syn syn' : MemberSyntax) (container : Container) (doc doc' : Option String),
        syn.modifiers = syn'.modifiers → syn.shape.Relaid syn'.shape →
          (syn.members container doc).map (·.shown) = (syn'.members container doc').map (·.shown)) ∧
      (∀ (kind : SymbolKind) (bases bases' : List String), List.Forall₂ Relaid bases bases' →
        splitBases kind bases = splitBases kind bases') ∧
      ∀ outer s t, Relaid s t → namespaceName outer s = namespaceName outer t := by
  refine ⟨fun s => ⟨unspaced_compact s, singleSpaced_compact s⟩, compact_compact, ?_, ?_, ?_, ?_⟩
  · intro s t
    exact compact_eq_iff
  · intro syn syn' container doc doc' hmodifiers hshape
    exact hshape.shown_eq hmodifiers container doc doc'
  · intro kind bases bases' hbases
    exact splitBases_eq_of_relaid hbases kind
  · intro outer s t h
    rw [namespaceName, namespaceName, compact_eq_iff.mpr h]

/-- A blank between two words counts, others do not. -/
theorem compact_canonical_dictionary :
    Relaid "Dictionary< string ,ref  int >" "Dictionary<string,\nref\tint>" ∧
      ¬Relaid "Dictionary<string, ref int>" "Dictionary<string, refint>" ∧
      ∀ kind, splitBases kind ["Dictionary< string ,ref  int >"] =
        splitBases kind ["Dictionary<string,\nref\tint>"] := by
  obtain ⟨-, -, hspelling, -, hbases, -⟩ := compact_canonical
  have hrelaid : Relaid "Dictionary< string ,ref  int >" "Dictionary<string,\nref\tint>" :=
    (hspelling _ _).mp (by decide +kernel)
  refine ⟨hrelaid, fun h => absurd ((hspelling _ _).mpr h) (by decide +kernel), fun kind => ?_⟩
  exact hbases kind _ _ (.cons hrelaid .nil)

end SolutionAtlas.CSharp
