-- SUMMARY: A declaration is read as a type exactly when it begins with the keywords of one.
import Mathlib
import SolutionAtlas.CSharp.Declaration

/-!
# Type declarations

The reader tells types from other declarations by the words behind the modifiers. Each form of type has
its keyword; a structure may be a `ref struct`, a record a `record class` or a `record struct`, and a
delegate has the type that it returns between its keyword and its name.
-/

namespace SolutionAtlas.CSharp

/-! ## Keywords -/

/-- A tree that is one word or symbol is no other. -/
theorem Nest.is_eq {n : Nest} {s : String} (h : n.is s = true) (s' : String) :
    n.is s' = decide (s = s') := by
  cases n with
  | leaf t =>
    obtain ⟨hkind, htext⟩ := Bool.and_eq_true_iff.mp h
    have hchars : t.text = s.toList := beq_iff_eq.mp htext
    simp only [Nest.is, Token.is, hkind, hchars, Bool.true_and]
    rw [Bool.eq_iff_iff, beq_iff_eq, decide_eq_true_eq, String.toList_inj]
  | group opener body closer => cases h
  | conditional opener body closer => cases h

namespace TypeForm

/-- The word that types of the form are declared with. -/
def keyword : TypeForm → String
  | .classForm => "class"
  | .interfaceForm => "interface"
  | .structForm => "struct"
  | .enumForm => "enum"
  | .recordForm => "record"
  | .delegateForm => "delegate"

/-- A list of trees begins with what declares a type of a form. The second list is what is left of it from the name
on. -/
inductive Opens : TypeForm → List Nest → List Nest → Prop
  | keyword {form : TypeForm} {n : Nest} {nameOn : List Nest} (record : form ≠ .recordForm)
      (delegate : form ≠ .delegateForm) (word : n.is form.keyword = true) : Opens form (n :: nameOn) nameOn
  | refStruct {n s : Nest} {nameOn : List Nest} (word : n.is "ref" = true) (next : s.is "struct" = true) :
      Opens .structForm (n :: s :: nameOn) nameOn
  | record {n s : Nest} {rest : List Nest} (word : n.is (keyword .recordForm) = true)
      (next : s.is "class" = false ∧ s.is "struct" = false) : Opens .recordForm (n :: s :: rest) (s :: rest)
  | recordOf {n s : Nest} {nameOn : List Nest} (word : n.is (keyword .recordForm) = true)
      (next : s.is "class" = true ∨ s.is "struct" = true) : Opens .recordForm (n :: s :: nameOn) nameOn
  | delegate {n s : Nest} {rest : List Nest} {k : Nat} (word : n.is (keyword .delegateForm) = true)
      (next : s.is "*" = false) (returns : typeLength (s :: rest) = some k) :
      Opens .delegateForm (n :: s :: rest) ((s :: rest).drop k)

end TypeForm

/-- A list of trees begins with a word. -/
def StartsWithWord (ns : List Nest) : Prop :=
  ∃ n rest, ns = n :: rest ∧ n.isWord = true

theorem startsWithWord_iff {ns : List Nest} :
    StartsWithWord ns ↔ (ns.head?.map (·.isWord)).getD false = true := by
  cases ns with
  | nil => simp [StartsWithWord]
  | cons n rest => simp [StartsWithWord]

theorem typeForm?_of_opens {form : TypeForm} {ns nameOn : List Nest} (h : form.Opens ns nameOn)
    (hname : StartsWithWord nameOn) : typeForm? ns = some (form, nameOn) := by
  have hword := startsWithWord_iff.mp hname
  cases h with
  | keyword hrecord hdelegate hn =>
    cases form with
    | recordForm => exact absurd rfl hrecord
    | delegateForm => exact absurd rfl hdelegate
    | _ => simp [typeForm?, Nest.is_eq hn, TypeForm.keyword, hword]
  | refStruct hn hs => simp [typeForm?, Nest.is_eq hn, hs, hword]
  | record hn hs =>
    obtain ⟨s, rest, heq, hs'⟩ := hname
    cases heq
    simp [typeForm?, Nest.is_eq hn, TypeForm.keyword, hs.1, hs.2, hs']
  | recordOf hn hs => simp [typeForm?, Nest.is_eq hn, TypeForm.keyword, hs, hword]
  | delegate hn hs hlength => simpa [typeForm?, Nest.is_eq hn, TypeForm.keyword, hs, hlength] using hword

theorem opens_of_typeForm? {form : TypeForm} {ns nameOn : List Nest} (h : typeForm? ns = some (form, nameOn)) :
    form.Opens ns nameOn ∧ StartsWithWord nameOn := by
  cases ns with
  | nil => cases h
  | cons n ns =>
    have hnamed {f : TypeForm} {rest : List Nest}
        (h : (if (rest.head?.map (·.isWord)).getD false then some (f, rest) else none) =
          some (form, nameOn)) : f = form ∧ rest = nameOn ∧ StartsWithWord nameOn := by
      split at h
      · rename_i hword
        cases h
        exact ⟨rfl, rfl, startsWithWord_iff.mpr hword⟩
      · cases h
    have hplain {f : TypeForm} (hn : n.is f.keyword = true) (hrecord : f ≠ .recordForm)
        (hdelegate : f ≠ .delegateForm)
        (h : (if (ns.head?.map (·.isWord)).getD false then some (f, ns) else none) = some (form, nameOn)) :
        form.Opens (n :: ns) nameOn ∧ StartsWithWord nameOn := by
      obtain ⟨rfl, rfl, hname⟩ := hnamed h
      exact ⟨.keyword hrecord hdelegate hn, hname⟩
    simp only [typeForm?] at h
    split at h
    · exact hplain (f := .classForm) ‹_› (by decide) (by decide) h
    split at h
    · exact hplain (f := .interfaceForm) ‹_› (by decide) (by decide) h
    split at h
    · exact hplain (f := .structForm) ‹_› (by decide) (by decide) h
    split at h
    · exact hplain (f := .enumForm) ‹_› (by decide) (by decide) h
    split at h
    · rename_i hn
      cases ns with
      | nil => cases h
      | cons m rest =>
        dsimp only at h
        split at h
        · rename_i hm
          obtain ⟨rfl, rfl, hname⟩ := hnamed h
          exact ⟨.refStruct hn hm, hname⟩
        · cases h
    split at h
    · rename_i hn
      cases ns with
      | nil => cases h
      | cons m rest =>
        dsimp only at h
        split at h
        · rename_i hm
          obtain ⟨rfl, rfl, hname⟩ := hnamed h
          exact ⟨.recordOf hn (by simpa using hm), hname⟩
        · rename_i hm
          obtain ⟨rfl, rfl, hname⟩ := hnamed h
          exact ⟨.record hn (by simpa using hm), hname⟩
    split at h
    · rename_i hn
      cases ns with
      | nil => simp [typeLength] at h
      | cons m rest =>
        split at h
        · rename_i k hlength
          split at h
          · cases h
          · rename_i hm
            obtain ⟨rfl, rfl, hname⟩ := hnamed h
            exact ⟨.delegate hn (by simpa using hm) hlength, hname⟩
        · cases h
    · cases h

/-- What stands behind the modifiers is taken for a type of a form just when it begins with the keywords of the
form and has a name behind them. -/
theorem typeForm?_eq_some_iff {form : TypeForm} {ns nameOn : List Nest} :
    typeForm? ns = some (form, nameOn) ↔ form.Opens ns nameOn ∧ StartsWithWord nameOn :=
  ⟨opens_of_typeForm?, fun ⟨hopens, hname⟩ => typeForm?_of_opens hopens hname⟩

example : ["class C", "interface I", "struct S", "ref struct S", "enum E", "record R", "record class R",
    "record struct R", "delegate int D()"].map (fun text => (typeForm? (nest (tokens text))).map (·.1)) =
      [some .classForm, some .interfaceForm, some .structForm, some .structForm, some .enumForm,
        some .recordForm, some .recordForm, some .recordForm, some .delegateForm] := by
  decide +kernel

/-! ## Declarations -/

/-- A declaration is that of a type: behind its attributes and modifiers stand the keywords of the form, then
the name. -/
def DeclaresType (piece : List Nest) (form : TypeForm) (name : String) : Prop :=
  ∃ n rest, form.Opens (DeclarationHead.read (Nest.significant piece)).rest (n :: rest) ∧
    n.isWord = true ∧ name = Nest.spelled [n]

/-- A declaration is read as a type of its form and with its name if it is that of a type, and as something
else if it is not. -/
def ReadAs (piece : List Nest) (item : Item) : Prop :=
  ∀ form name, DeclaresType piece form name ↔
    ∃ head body, item = .type head body ∧ head.form = form ∧ head.name = name

theorem TypeForm.Opens.not_namespace {form : TypeForm} {n : Nest} {ns nameOn : List Nest}
    (h : form.Opens (n :: ns) nameOn) : n.is "namespace" = false := by
  cases h with
  | keyword _ _ hn =>
    rw [Nest.is_eq hn]
    cases form <;> decide
  | refStruct hn _ => exact (Nest.is_eq hn _).trans (by decide)
  | record hn _ => exact (Nest.is_eq hn _).trans (by decide)
  | recordOf hn _ => exact (Nest.is_eq hn _).trans (by decide)
  | delegate hn _ _ => exact (Nest.is_eq hn _).trans (by decide)

theorem readItem_of_declaresType {piece : List Nest} {form : TypeForm} {name : String}
    (h : DeclaresType piece form name) (fuel : Nat) :
    ∃ head body, readItem (fuel + 1) piece = .type head body ∧ head.form = form ∧ head.name = name := by
  obtain ⟨n, rest, hopens, hword, rfl⟩ := h
  cases hrest : (DeclarationHead.read (Nest.significant piece)).rest with
  | nil =>
    rw [hrest] at hopens
    cases hopens
  | cons m ms =>
    rw [hrest] at hopens
    have hform := typeForm?_of_opens hopens ⟨n, rest, rfl, hword⟩
    simp only [readItem, hrest, hopens.not_namespace, hform]
    exact ⟨_, _, rfl, rfl, rfl⟩

theorem declaresType_of_readItem {piece : List Nest} {fuel : Nat} {head : TypeHead} {body : List Item}
    (h : readItem (fuel + 1) piece = .type head body) : DeclaresType piece head.form head.name := by
  cases hrest : (DeclarationHead.read (Nest.significant piece)).rest with
  | nil =>
    simp only [readItem, hrest] at h
    cases h
  | cons m ms =>
    simp only [readItem, hrest] at h
    split at h
    · split at h <;> cases h
    · split at h
      · rename_i form nameOn hform
        obtain ⟨hopens, n, rest, rfl, hword⟩ := opens_of_typeForm? hform
        cases h
        exact ⟨n, rest, hrest ▸ hopens, hword, rfl⟩
      · split at h <;> cases h

theorem readItem_readAs (fuel : Nat) (piece : List Nest) : ReadAs piece (readItem (fuel + 1) piece) := by
  intro form name
  constructor
  · exact fun h => readItem_of_declaresType h fuel
  · rintro ⟨head, body, hitem, rfl, rfl⟩
    exact declaresType_of_readItem hitem

/-! ## Bodies -/

/-- What takes no part in a declaration declares no type. -/
theorem not_declaresType_of_isExtra {n : Nest} (h : n.isExtra = true) {form : TypeForm} {name : String} :
    ¬ DeclaresType [n] form name := by
  rintro ⟨m, rest, hopens, -, -⟩
  have hnone : Nest.significant [n] = [] := by simp [Nest.significant, Nest.significant.go, h]
  rw [hnone] at hopens
  cases hopens

/-- An attribute list with nothing behind it declares no type. -/
theorem not_declaresType_of_isGroup {n : Nest} (h : n.isGroup "[" = true) {form : TypeForm} {name : String} :
    ¬ DeclaresType [n] form name := by
  rintro ⟨m, rest, hopens, -, -⟩
  cases n with
  | leaf t => cases h
  | conditional opener body closer => cases h
  | group opener body closer =>
    have hnone : (DeclarationHead.read (Nest.significant [.group opener body closer])).rest = [] := by
      have hlist (lead : List Char) : ({ opener with lead } : Token).is "[" = opener.is "[" := rfl
      have hopener : opener.is "[" = true := by simpa [Nest.isGroup, Nest.group?] using h
      simp [DeclarationHead.read, Nest.significant, Nest.significant.go, Nest.isExtra, Nest.withLead,
        declarationHeadLength, Nest.isGroup, Nest.group?, hlist, hopener]
    rw [hnone] at hopens
    cases hopens

theorem isExtra_of_isComment {n : Nest} (h : n.isComment = true) : n.isExtra = true := by
  cases n with
  | leaf t =>
    have hkind : t.kind = .comment := beq_iff_eq.mp h
    simp [Nest.isExtra, Token.isExtra, hkind]
  | group opener body closer => cases h
  | conditional opener body closer => rfl

theorem isGroup_of_isGlobalAttribute {n : Nest} (h : isGlobalAttribute n = true) : n.isGroup "[" = true := by
  rw [isGlobalAttribute] at h
  split at h
  · rename_i body hbody
    rw [Nest.isGroup, hbody]
    rfl
  · cases h

/-- The pieces that the trees between the braces of a namespace or a type are cut into hold all of the trees, and
each is read as one item. So no declaration of a type among them is lost, and nothing else is taken for
one. -/
theorem readItems_body {fuel : Nat} {ns : List Nest} (h : ns.length < fuel) :
    ∃ pieces : List (List Nest), pieces.flatten = ns ∧
      List.Forall₂ ReadAs pieces (readItems fuel .body ns) := by
  induction fuel generalizing ns with
  | zero => exact absurd h (Nat.not_lt_zero _)
  | succ fuel ih =>
    cases ns with
    | nil => exact ⟨[], rfl, by simp [readItems]⟩
    | cons n ns =>
      have hbehind : ns.length < fuel := Nat.lt_of_succ_lt_succ h
      have hpassed {item : Item} (hpiece : ∀ form name, ¬ DeclaresType [n] form name)
          (hitem : ∀ head body, item ≠ .type head body) : ∃ pieces : List (List Nest),
          pieces.flatten = n :: ns ∧ List.Forall₂ ReadAs pieces (item :: readItems fuel .body ns) := by
        obtain ⟨pieces, hflat, hread⟩ := ih hbehind
        refine ⟨[n] :: pieces, by rw [List.flatten_cons, hflat]; rfl, .cons (fun form name => ?_) hread⟩
        exact iff_of_false (hpiece form name) fun ⟨head, body, heq, _⟩ => hitem head body heq
      rw [readItems]
      split
      · rename_i hcomment
        exact hpassed (fun _ _ => not_declaresType_of_isExtra (isExtra_of_isComment hcomment)) (by simp)
      · split
        · rename_i hskipped
          refine hpassed (fun _ _ => ?_) (by simp)
          rcases (Bool.or_eq_true _ _).mp hskipped with hextra | hglobal
          · exact not_declaresType_of_isExtra (Bool.and_eq_true_iff.mp hextra).1
          · exact not_declaresType_of_isGroup (isGroup_of_isGlobalAttribute hglobal)
        · obtain ⟨f, rfl⟩ := Nat.exists_eq_succ_of_ne_zero (Nat.ne_zero_of_lt hbehind)
          obtain ⟨k, hk⟩ : ∃ k, max 1 (declarationExtent (n :: ns)) = k + 1 :=
            Nat.exists_eq_succ_of_ne_zero (by omega)
          have hlater : ((n :: ns).drop (k + 1)).length < f + 1 := by
            rw [List.drop_succ_cons, List.length_drop]
            omega
          obtain ⟨pieces, hflat, hread⟩ := ih hlater
          refine ⟨(n :: ns).take (k + 1) :: pieces, ?_, ?_⟩
          · rw [List.flatten_cons, hflat, List.take_append_drop]
          · simp only [hk]
            exact .cons (readItem_readAs f _) hread

end SolutionAtlas.CSharp
