-- SUMMARY: Methods and constructors of one type share an id exactly when their names, arities and parameters do.
import Mathlib
import SolutionAtlas.CSharp.Outline
import SolutionAtlas.Proofs.Index.Consistency

/-!
# Ids of overloads

The id of a method puts its name, the mark of its arity and the types of its parameters behind one another. They
can be told apart again: a name ends where a mark or a parenthesis begins, and the comma behind a parameter
is the first one that is in no bracket.
-/

namespace SolutionAtlas.CSharp

/-! ## Texts one behind the other -/

/-- The texts in front are the same, when none of them goes on with what follows the other. -/
theorem append_inj_of_head {x x' t t' : List Char} (hx : ∀ c u, x = x' ++ c :: u → t'.head? ≠ some c)
    (hx' : ∀ c u, x' = x ++ c :: u → t.head? ≠ some c) (h : x ++ t = x' ++ t') : x = x' ∧ t = t' := by
  rcases List.append_eq_append_iff.mp h with ⟨u, hu, ht⟩ | ⟨u, hu, ht⟩
  · cases u with
    | nil => exact ⟨by rw [hu, List.append_nil], ht⟩
    | cons c u => exact absurd (by rw [ht]; rfl) (hx' c u hu)
  · cases u with
    | nil => exact ⟨by rw [hu, List.append_nil], ht.symm⟩
    | cons c u => exact absurd (by rw [ht]; rfl) (hx c u hu)

/-- What follows begins with one of some characters, if there is anything. -/
def OpensWith (cs : List Char) (t : List Char) : Prop :=
  ∀ c, t.head? = some c → c ∈ cs

theorem append_inj_of_opensWith {cs x x' t t' : List Char} (hx : ∀ c ∈ cs, c ∉ x) (hx' : ∀ c ∈ cs, c ∉ x')
    (ht : OpensWith cs t) (ht' : OpensWith cs t') (h : x ++ t = x' ++ t') : x = x' ∧ t = t' := by
  refine append_inj_of_head (fun c u hu hhead => ?_) (fun c u hu hhead => ?_) h
  · exact hx c (ht' c hhead) (by rw [hu]; simp)
  · exact hx' c (ht c hhead) (by rw [hu]; simp)

/-! ## Closed texts -/

/-- How a character changes the number of open brackets. -/
def bracketStep (c : Char) : Int :=
  if c ∈ ['(', '[', '<', '\x7b'] then 1 else if c ∈ [')', ']', '>', '\x7d'] then -1 else 0

/-- The brackets that a text opens, less those that it closes. -/
def depth (s : List Char) : Int :=
  (s.map bracketStep).sum

/-- A text closes as many brackets as it opens, and has commas only within brackets. All texts with balanced brackets
and no comma outside of them are closed. -/
structure Closed (s : List Char) : Prop where
  depth_eq : depth s = 0
  comma : ∀ u v, s = u ++ ',' :: v → 0 < depth u

theorem closed_iff {s : List Char} :
    Closed s ↔ depth s = 0 ∧ ∀ i < s.length, s[i]? = some ',' → 0 < depth (s.take i) := by
  constructor
  · intro h
    refine ⟨h.depth_eq, fun i hi hcomma => h.comma _ (s.drop (i + 1)) ?_⟩
    rw [List.getElem?_eq_getElem hi, Option.some.injEq] at hcomma
    rw [← hcomma, List.cons_getElem_drop_succ, List.take_append_drop]
  · rintro ⟨hdepth, hcomma⟩
    refine ⟨hdepth, ?_⟩
    rintro u v rfl
    simpa using hcomma u.length (by simp) (by simp)

instance (s : List Char) : Decidable (Closed s) :=
  decidable_of_iff _ closed_iff.symm

namespace Closed

variable {x x' s : List Char}

theorem append_inj {t t' : List Char} (hx : Closed x) (hx' : Closed x') (ht : OpensWith [','] t)
    (ht' : OpensWith [','] t') (h : x ++ t = x' ++ t') : x = x' ∧ t = t' := by
  refine append_inj_of_head (fun c u hu hhead => ?_) (fun c u hu hhead => ?_) h
  · obtain rfl := List.mem_singleton.mp (ht' c hhead)
    exact absurd hx'.depth_eq (hx.comma x' u hu).ne'
  · obtain rfl := List.mem_singleton.mp (ht c hhead)
    exact absurd hx.depth_eq (hx'.comma x u hu).ne'

/-- Closed texts can be told from what they are joined to with commas. -/
theorem flatMap_inj {xs xs' : List (List Char)} (hxs : ∀ x ∈ xs, Closed x) (hxs' : ∀ x ∈ xs', Closed x)
    (h : (xs.flatMap fun x => ',' :: x) = xs'.flatMap fun x => ',' :: x) : xs = xs' := by
  have hopens (ys : List (List Char)) : OpensWith [','] (ys.flatMap fun y => ',' :: y) := by
    intro c hc
    cases ys with
    | nil => cases hc
    | cons y ys =>
      cases hc
      exact List.mem_singleton_self _
  induction xs generalizing xs' with
  | nil =>
    cases xs' with
    | nil => rfl
    | cons x' xs' => cases h
  | cons x xs ih =>
    cases xs' with
    | nil => cases h
    | cons x' xs' =>
      obtain ⟨hx, hlater⟩ := List.forall_mem_cons.mp hxs
      obtain ⟨hx', hlater'⟩ := List.forall_mem_cons.mp hxs'
      rw [List.flatMap_cons, List.flatMap_cons, List.cons_append, List.cons_append] at h
      obtain ⟨rfl, hrest⟩ := hx.append_inj hx' (hopens xs) (hopens xs') (List.cons.inj h).2
      rw [ih hlater hlater' hrest]

theorem intercalate_inj {xs xs' : List (List Char)} (hxs : ∀ x ∈ xs, Closed x) (hxs' : ∀ x ∈ xs', Closed x)
    (hne : xs ≠ []) (hne' : xs' ≠ []) (h : [','].intercalate xs = [','].intercalate xs') : xs = xs' := by
  have hjoin {ys : List (List Char)} (hys : ys ≠ []) :
      ',' :: [','].intercalate ys = ys.flatMap fun y => ',' :: y := by
    induction ys with
    | nil => exact absurd rfl hys
    | cons y ys ih =>
      cases ys with
      | nil => simp
      | cons y' ys =>
        rw [List.intercalate_cons_cons, List.flatMap_cons, ← ih (List.cons_ne_nil _ _)]
        simp
  exact flatMap_inj hxs hxs' (by rw [← hjoin hne, ← hjoin hne', h])

/-- A text that differs in characters that are no commas, and opens and closes brackets alike, is closed as well. -/
theorem map (h : Closed s) {f : Char → Char} (hstep : ∀ c, bracketStep (f c) = bracketStep c)
    (hcomma : ∀ c, f c = ',' → c = ',') : Closed (s.map f) := by
  have hdepth (u : List Char) : depth (u.map f) = depth u := by
    rw [depth, depth, List.map_map]
    exact congrArg List.sum (List.map_congr_left fun c _ => hstep c)
  constructor
  · rw [hdepth, h.depth_eq]
  · intro u v huv
    obtain ⟨u', rest, rfl, rfl, hrest⟩ := List.map_eq_append_iff.mp huv
    obtain ⟨c, v', rfl, hc, -⟩ := List.map_eq_cons_iff.mp hrest
    rw [hdepth]
    exact h.comma u' v' (by rw [hcomma c hc])

theorem concat (h : Closed s) {c : Char} (hstep : bracketStep c = 0) (hcomma : c ≠ ',') : Closed (s ++ [c]) := by
  constructor
  · have hdepth : depth (s ++ [c]) = depth s := by simp [depth, hstep]
    rw [hdepth, h.depth_eq]
  · intro u v huv
    rcases List.eq_nil_or_concat' v with rfl | ⟨v, last, rfl⟩
    · exact absurd (List.append_inj' huv rfl).2 (by simpa using hcomma)
    · have hlast : s ++ [c] = (u ++ ',' :: v) ++ [last] := by rw [huv, List.append_assoc, List.cons_append]
      exact h.comma u v (List.append_inj' hlast rfl).1

end Closed

/-! ## Parameters -/

/-- The text of a type without blanks. -/
def unspaced (typeName : String) : List Char :=
  typeName.toList.filter (!Text.isBlank ·)

/-- Angle brackets as they stand in ids. -/
def brace (c : Char) : Char :=
  if c == '<' then '\x7b' else if c == '>' then '\x7d' else c

/-- Angle brackets as they stand in texts of types. -/
def unbrace (c : Char) : Char :=
  if c == '\x7b' then '<' else if c == '\x7d' then '>' else c

/-- The parameter is handed over by reference. -/
def IsByReference (p : Parameter) : Prop :=
  ∃ m ∈ p.modifiers, m = "ref" ∨ m = "out" ∨ m = "in"

/-- A text as those of types: its brackets are balanced and all commas stand in brackets, there are no braces in it,
and it does not end with the mark of references. -/
structure IsTypeText (typeName : String) : Prop where
  closed : Closed (unspaced typeName)
  no_braces : '\x7b' ∉ typeName.toList ∧ '\x7d' ∉ typeName.toList
  no_mark : (unspaced typeName).getLast? ≠ some '@'

theorem isTypeText_iff {typeName : String} :
    IsTypeText typeName ↔ Closed (unspaced typeName) ∧
      ('\x7b' ∉ typeName.toList ∧ '\x7d' ∉ typeName.toList) ∧ (unspaced typeName).getLast? ≠ some '@' :=
  ⟨fun h => ⟨h.closed, h.no_braces, h.no_mark⟩, fun h => ⟨h.1, h.2.1, h.2.2⟩⟩

instance (typeName : String) : Decidable (IsTypeText typeName) :=
  decidable_of_iff _ isTypeText_iff.symm

example : IsTypeText "Dictionary<string, (int, int[,])>" := by decide +kernel

/-- The parameters are of one type, up to blanks, and both or neither of them are handed over by reference. -/
structure SameParameter (p q : Parameter) : Prop where
  type_eq : unspaced p.typeName = unspaced q.typeName
  byReference_iff : IsByReference p ↔ IsByReference q

section Parameters

variable {p q : Parameter} {ps qs : List Parameter}

instance (p : Parameter) : Decidable (IsByReference p) :=
  inferInstanceAs (Decidable (∃ m ∈ p.modifiers, m = "ref" ∨ m = "out" ∨ m = "in"))

theorem toList_idParameter (p : Parameter) :
    (idParameter p).toList =
      (unspaced p.typeName).map brace ++ if IsByReference p then ['@'] else [] := by
  have hmark : (p.modifiers.any fun m => m == "ref" || m == "out" || m == "in") = true ↔ IsByReference p := by
    simp [IsByReference, or_assoc]
  rw [idParameter, String.toList_ofList]
  by_cases h : IsByReference p
  · rw [if_pos h]
    simp only [hmark.mpr h, if_true]
    rfl
  · rw [if_neg h, List.append_nil]
    simp only [Bool.eq_false_iff.mpr (mt hmark.mp h), Bool.false_eq_true, if_false]
    rfl

theorem bracketStep_brace (c : Char) : bracketStep (brace c) = bracketStep c := by
  by_cases hopen : c = '<'
  · subst hopen
    decide
  · by_cases hclose : c = '>'
    · subst hclose
      decide
    · simp [brace, hopen, hclose]

/-- Characters other than brackets come from themselves. -/
theorem eq_of_brace_eq {c d : Char} (hd : d ∉ ['\x7b', '\x7d']) (h : brace c = d) : c = d := by
  by_cases hopen : c = '<'
  · subst hopen
    exact absurd (h ▸ by decide) hd
  · by_cases hclose : c = '>'
    · subst hclose
      exact absurd (h ▸ by decide) hd
    · simpa [brace, hopen, hclose] using h

theorem unbrace_brace {c : Char} (hopen : c ≠ '\x7b') (hclose : c ≠ '\x7d') : unbrace (brace c) = c := by
  by_cases hless : c = '<'
  · subst hless
    rfl
  · by_cases hgreater : c = '>'
    · subst hgreater
      rfl
    · simp [brace, unbrace, hless, hgreater, hopen, hclose]

/-- Without braces, a text of a type can be told from its spelling in ids. -/
theorem IsTypeText.map_unbrace {typeName : String} (h : IsTypeText typeName) :
    ((unspaced typeName).map brace).map unbrace = unspaced typeName := by
  have hkept : ∀ c ∈ unspaced typeName, (unbrace ∘ brace) c = id c := by
    intro c hc
    have hmem : c ∈ typeName.toList := List.mem_of_mem_filter hc
    exact unbrace_brace (ne_of_mem_of_not_mem hmem h.no_braces.1) (ne_of_mem_of_not_mem hmem h.no_braces.2)
  rw [List.map_map, List.map_congr_left hkept, List.map_id]

theorem IsTypeText.closed_idParameter (h : IsTypeText p.typeName) : Closed (idParameter p).toList := by
  have hclosed : Closed ((unspaced p.typeName).map brace) :=
    h.closed.map bracketStep_brace fun c hc => eq_of_brace_eq (by decide) hc
  rw [toList_idParameter]
  split
  · exact hclosed.concat (by decide) (by decide)
  · rwa [List.append_nil]

theorem IsTypeText.getLast?_map_brace (h : IsTypeText p.typeName) (s : List Char) :
    (unspaced p.typeName).map brace ≠ s ++ ['@'] := by
  intro heq
  have hlast : ((unspaced p.typeName).map brace).getLast? = some '@' := by rw [heq, List.getLast?_concat]
  rw [List.getLast?_map, Option.map_eq_some_iff] at hlast
  obtain ⟨c, hc, hmark⟩ := hlast
  exact h.no_mark (eq_of_brace_eq (by decide) hmark ▸ hc)

/-- Parameters are spelled alike in ids when they are the same. -/
theorem idParameter_eq_iff (hp : IsTypeText p.typeName) (hq : IsTypeText q.typeName) :
    idParameter p = idParameter q ↔ SameParameter p q := by
  rw [← String.toList_inj, toList_idParameter, toList_idParameter]
  constructor
  · intro h
    have htexts : (unspaced p.typeName).map brace = (unspaced q.typeName).map brace ∧
        (IsByReference p ↔ IsByReference q) := by
      split at h <;> rename_i hmark <;> split at h <;> rename_i hmark'
      · exact ⟨List.append_cancel_right h, iff_of_true hmark hmark'⟩
      · exact absurd (by simpa using h.symm) (hq.getLast?_map_brace _)
      · exact absurd (by simpa using h) (hp.getLast?_map_brace _)
      · exact ⟨by simpa using h, iff_of_false hmark hmark'⟩
    refine ⟨?_, htexts.2⟩
    rw [← hp.map_unbrace, htexts.1, hq.map_unbrace]
  · intro h
    rw [h.type_eq]
    exact congrArg (_ ++ ·) (if_congr h.byReference_iff rfl rfl)

end Parameters

/-! ## Parameter lists -/

theorem toList_idParameterList {ps : List Parameter} (hne : ps ≠ []) :
    (idParameterList ps).toList = '(' :: ([','].intercalate (ps.map fun p => (idParameter p).toList) ++ [')']) := by
  have hparens : idParameterList ps = "(" ++ ",".intercalate (ps.map idParameter) ++ ")" :=
    if_neg (by simpa using hne)
  rw [hparens, String.toList_append, String.toList_append, String.toList_intercalate, List.map_map]
  rfl

/-- The list in an id begins with a parenthesis, if there are any parameters. -/
theorem opensWith_idParameterList (ps : List Parameter) : OpensWith ['('] (idParameterList ps).toList := by
  intro c hc
  rcases eq_or_ne ps [] with rfl | hne
  · cases hc
  · rw [toList_idParameterList hne, List.head?_cons] at hc
    exact List.mem_singleton.mpr (Option.some.inj hc).symm

theorem map_idParameter_eq_iff {ps qs : List Parameter} (hps : ∀ p ∈ ps, IsTypeText p.typeName)
    (hqs : ∀ q ∈ qs, IsTypeText q.typeName) :
    ps.map idParameter = qs.map idParameter ↔ List.Forall₂ SameParameter ps qs := by
  induction ps generalizing qs with
  | nil => cases qs <;> simp
  | cons p ps ih =>
    cases qs with
    | nil => simp
    | cons q qs =>
      obtain ⟨hp, hps⟩ := List.forall_mem_cons.mp hps
      obtain ⟨hq, hqs⟩ := List.forall_mem_cons.mp hqs
      rw [List.map_cons, List.map_cons, List.cons.injEq, idParameter_eq_iff hp hq, ih hps hqs, List.forall₂_cons]

/-- Two lists are spelled alike in ids when they are of one length and the same position by position. -/
theorem idParameterList_eq_iff {ps qs : List Parameter} (hps : ∀ p ∈ ps, IsTypeText p.typeName)
    (hqs : ∀ q ∈ qs, IsTypeText q.typeName) :
    idParameterList ps = idParameterList qs ↔ List.Forall₂ SameParameter ps qs := by
  have hclosed {rs : List Parameter} (hrs : ∀ r ∈ rs, IsTypeText r.typeName) :
      ∀ x ∈ rs.map fun r => (idParameter r).toList, Closed x := by
    intro x hx
    obtain ⟨r, hr, rfl⟩ := List.mem_map.mp hx
    exact (hrs r hr).closed_idParameter
  have hnil {rs : List Parameter} (hne : rs ≠ []) : idParameterList rs ≠ idParameterList [] := by
    intro h
    have hchars := congrArg String.toList h
    rw [toList_idParameterList hne] at hchars
    cases hchars
  rw [← map_idParameter_eq_iff hps hqs]
  constructor
  · intro h
    rcases eq_or_ne ps [] with rfl | hp
    · rcases eq_or_ne qs [] with rfl | hq
      · rfl
      · exact absurd h.symm (hnil hq)
    · rcases eq_or_ne qs [] with rfl | hq
      · exact absurd h (hnil hp)
      · have hchars := congrArg String.toList h
        rw [toList_idParameterList hp, toList_idParameterList hq, List.cons.injEq] at hchars
        have hlists := Closed.intercalate_inj (hclosed hps) (hclosed hqs) (by simpa using hp) (by simpa using hq)
          (List.append_cancel_right hchars.2)
        refine List.map_injective_iff.mpr (fun _ _ => String.toList_injective) ?_
        rw [List.map_map, List.map_map]
        exact hlists
  · intro h
    rw [idParameterList, idParameterList, h]
    have hempty : ps.isEmpty = qs.isEmpty := by
      rw [← List.isEmpty_map (f := idParameter), h, List.isEmpty_map]
    rw [hempty]

/-! ## Names -/

/-- The text is a word in some source text: an identifier or a keyword. -/
def IsWord (text : String) : Prop :=
  ∃ source, ∃ t ∈ tokens source, t.kind = .word ∧ text.toList = t.text

/-- A character of words: of a name, of an escape in it, or in front of it. -/
def IsWordChar (c : Char) : Prop :=
  isNamePart c = true ∨ c = '\\' ∨ c = '@'

theorem isWordChar_of_mem_take {s : List Char} : ∀ c ∈ s.take (nameLength s), IsWordChar c := by
  have hcons {c : Char} {s : List Char} {n : Nat} (hc : IsWordChar c) (hs : ∀ c ∈ s.take n, IsWordChar c) :
      ∀ d ∈ (c :: s).take (1 + n), IsWordChar d := by
    rw [Nat.add_comm, List.take_succ_cons]
    exact List.forall_mem_cons.mpr ⟨hc, hs⟩
  fun_induction nameLength s with
  | case1 => simp
  | case2 _ ih => exact hcons (.inr (.inl rfl)) ih
  | case3 _ ih => exact hcons (.inr (.inl rfl)) ih
  | case4 => simp
  | case5 c _ _ hc ih => exact hcons (.inl hc) ih
  | case6 => simp

theorem isWordChar_of_measure {opens : Bool} {s : List Char} {n : Nat} (h : measure opens s = (.word, n)) :
    0 < n ∧ ∀ c ∈ s.take n, IsWordChar c := by
  unfold measure at h
  split at h
  · cases h
  · cases h
  · split at h <;> cases h
  · dsimp only at h
    split at h
    · cases h
    · split at h
      · split at h
        · rename_i rest hname
          cases h
          refine ⟨Nat.add_pos_left Nat.one_pos _, ?_⟩
          rw [Nat.add_comm, List.take_succ_cons]
          exact List.forall_mem_cons.mpr ⟨.inr (.inr rfl), isWordChar_of_mem_take⟩
        · cases h
      · split at h <;> cases h
      · split at h
        · cases h
        · split at h
          · rename_i hname
            cases h
            exact ⟨hname, isWordChar_of_mem_take⟩
          · split at h <;> cases h
      · cases h

theorem mem_tokensFrom {position : Position} {opensLine : Bool} {s : List Char} {t : Token}
    (h : t ∈ tokensFrom position opensLine s) :
    ∃ opens c rest n, measure opens (c :: rest) = (t.kind, n) ∧ t.text = c :: rest.take (n - 1) := by
  fun_induction tokensFrom position opensLine s with
  | case1 => cases h
  | case2 _ _ _ _ c rest _ _ opens kind n hmeasure _ _ ih =>
    rcases List.mem_cons.mp h with rfl | h
    · exact ⟨opens, c, rest, n, hmeasure, rfl⟩
    · exact ih h

theorem IsWord.isWordChar {text : String} (h : IsWord text) : ∀ c ∈ text.toList, IsWordChar c := by
  obtain ⟨source, t, ht, hkind, htext⟩ := h
  obtain ⟨opens, c, rest, n, hmeasure, hchars⟩ := mem_tokensFrom ht
  rw [hkind] at hmeasure
  obtain ⟨hn, hword⟩ := isWordChar_of_measure hmeasure
  rw [htext, hchars]
  rwa [← Nat.sub_one_add_one hn.ne', List.take_succ_cons] at hword

theorem IsWord.not_mem {text : String} (h : IsWord text) : ∀ c ∈ ['\x60', '('], c ∉ text.toList := by
  have hother : ∀ c ∈ ['\x60', '('], ¬ IsWordChar c := by
    intro c hc
    rw [IsWordChar]
    rcases List.mem_pair.mp hc with rfl | rfl <;> decide
  exact fun c hc hmem => hother c hc (h.isWordChar c hmem)

/-! ## Ids -/

/-- What the id of a method or of a constructor tells. -/
structure IdParts where
  /-- The name of a method, or the mark of constructors. -/
  mark : String
  /-- The number of type parameters. -/
  arity : Nat
  parameters : List Parameter

/-- The id parts of a declaration. The name of a method is a word. -/
inductive IdParts.Of (syn : MemberSyntax) : IdParts → Prop
  | method {returns name : String} {typeParameters : List String} {parameters : List ParameterSyntax}
      {body : Option Body} (shape : syn.shape = .method returns name typeParameters parameters body)
      (word : IsWord name) : Of syn ⟨name, typeParameters.length, parameters.map (·.parameter)⟩
  | constructor {name : String} {parameters : List ParameterSyntax} {body : Option Body}
      (shape : syn.shape = .constructor name parameters body) :
      Of syn ⟨if syn.modifiers.contains "static" then "#cctor" else "#ctor", 0, parameters.map (·.parameter)⟩

namespace IdParts

variable {syn syn' : MemberSyntax} {k k' : IdParts} {container : Container} {doc doc' : Option String}
  {m m' : OutlineMember}

/-- What stands in an id behind the path of the type. -/
def shown (k : IdParts) : String :=
  k.mark ++ methodAritySuffix k.arity ++ idParameterList k.parameters

theorem Of.id_eq (h : k.Of syn) (hm : m ∈ syn.members container doc) :
    m.id = "M:" ++ container.idPath ++ "." ++ k.shown := by
  unfold MemberSyntax.members at hm
  cases h with
  | method shape word =>
    simp only [shape, List.mem_singleton] at hm
    rw [hm]
    rfl
  | constructor shape =>
    simp only [shape, List.mem_singleton] at hm
    rw [hm]
    simp only [shown, methodAritySuffix]
    simp [SymbolKind.idLead]

theorem Of.not_mem_mark (h : k.Of syn) : ∀ c ∈ ['\x60', '('], c ∉ k.mark.toList := by
  cases h with
  | method shape word => exact word.not_mem
  | constructor shape =>
    intro c hc
    dsimp only
    rcases List.mem_pair.mp hc with rfl | rfl <;> split <;> decide

theorem toList_methodAritySuffix (n : Nat) :
    (methodAritySuffix n).toList = if n = 0 then [] else '\x60' :: '\x60' :: Nat.toDigits 10 n := by
  rw [methodAritySuffix]
  by_cases h : n = 0
  · rw [if_pos h, if_pos (beq_iff_eq.mpr h)]
    rfl
  · rw [if_neg h, if_neg (by simpa using h), String.toList_append, Nat.toString_eq_ofList_toDigits]
    simp only [String.toList_ofList]
    rfl

theorem not_mem_methodAritySuffix (n : Nat) : ∀ c ∈ ['('], c ∉ (methodAritySuffix n).toList := by
  intro c hc
  obtain rfl := List.mem_singleton.mp hc
  rw [toList_methodAritySuffix]
  split
  · exact List.not_mem_nil
  · have hdigits : '(' ∉ Nat.toDigits 10 n := fun h =>
      absurd (Nat.isDigit_of_mem_toDigits (by decide) (by decide) h) (by decide)
    simp [hdigits]

theorem methodAritySuffix_inj {n n' : Nat} (h : methodAritySuffix n = methodAritySuffix n') : n = n' := by
  have hchars := congrArg String.toList h
  rw [toList_methodAritySuffix, toList_methodAritySuffix] at hchars
  split at hchars <;> rename_i hn <;> split at hchars <;> rename_i hn'
  · rw [hn, hn']
  · cases hchars
  · cases hchars
  · have hdigits : Nat.toDigits 10 n = Nat.toDigits 10 n' := by simpa using hchars
    rw [← Nat.ofDigitChars_ten_toDigits (n := n), hdigits, Nat.ofDigitChars_ten_toDigits]

/-- What follows the mark begins with the mark of an arity or a parenthesis, if there is anything. -/
theorem opensWith_suffix (n : Nat) (ps : List Parameter) :
    OpensWith ['\x60', '('] ((methodAritySuffix n).toList ++ (idParameterList ps).toList) := by
  intro c hc
  rw [toList_methodAritySuffix] at hc
  split at hc
  · exact List.mem_cons_of_mem _ (opensWith_idParameterList ps c hc)
  · rw [List.cons_append, List.head?_cons] at hc
    exact Option.some.inj hc ▸ List.mem_cons_self

/-- The parts of two overloads are the same, that of each parameter up to blanks. -/
structure Same (k k' : IdParts) : Prop where
  mark_eq : k.mark = k'.mark
  arity_eq : k.arity = k'.arity
  parameters : List.Forall₂ SameParameter k.parameters k'.parameters

/-- The parameters have types that can be told apart in an id. -/
def Typed (k : IdParts) : Prop :=
  ∀ p ∈ k.parameters, IsTypeText p.typeName

theorem shown_eq_iff (h : k.Of syn) (h' : k'.Of syn') (ht : k.Typed) (ht' : k'.Typed) :
    k.shown = k'.shown ↔ Same k k' := by
  constructor
  · intro hshown
    have hchars := congrArg String.toList hshown
    rw [shown, shown, String.toList_append, String.toList_append, String.toList_append, String.toList_append,
      List.append_assoc, List.append_assoc] at hchars
    obtain ⟨hmark, hrest⟩ := append_inj_of_opensWith h.not_mem_mark h'.not_mem_mark
      (opensWith_suffix _ _) (opensWith_suffix _ _) hchars
    obtain ⟨harity, hlist⟩ := append_inj_of_opensWith (not_mem_methodAritySuffix _) (not_mem_methodAritySuffix _)
      (opensWith_idParameterList _) (opensWith_idParameterList _) hrest
    exact
      { mark_eq := String.toList_injective hmark
        arity_eq := methodAritySuffix_inj (String.toList_injective harity)
        parameters := (idParameterList_eq_iff ht ht').mp (String.toList_injective hlist) }
  · intro hsame
    rw [shown, shown, hsame.mark_eq, hsame.arity_eq, (idParameterList_eq_iff ht ht').mpr hsame.parameters]

end IdParts

/-! ## Parameters that are no nodes -/

/-- The parameters are those that are read between some parentheses. -/
def IdParts.ReadFrom (k : IdParts) (trees : List Nest) : Prop :=
  k.parameters = (readParameters trees).map (·.parameter)

/-- Two parameters are read alike, as far as an id shows them. -/
def ReadAlike (piece piece' : List Nest) : Prop :=
  Option.Rel SameParameter ((readParameter piece).map (·.parameter)) ((readParameter piece').map (·.parameter))

theorem forall₂_filterMap_readParameter {pieces pieces' : List (List Nest)}
    (h : List.Forall₂ ReadAlike pieces pieces') :
    List.Forall₂ SameParameter ((pieces.filterMap readParameter).map (·.parameter))
      ((pieces'.filterMap readParameter).map (·.parameter)) := by
  induction h with
  | nil => exact .nil
  | @cons piece piece' _ _ hpiece _ ih =>
    rw [ReadAlike] at hpiece
    cases hread : readParameter piece <;> cases hread' : readParameter piece' <;>
      rw [hread, hread'] at hpiece <;> cases hpiece
    · rw [List.filterMap_cons_none hread, List.filterMap_cons_none hread']
      exact ih
    · rename_i hsame
      rw [List.filterMap_cons_some hread, List.filterMap_cons_some hread']
      exact .cons hsame ih

/-- What takes a variable number of arguments makes no difference between overloads. -/
theorem IdParts.Same.of_parameterNodes {k k' : IdParts} {trees trees' : List Nest} (hmark : k.mark = k'.mark)
    (harity : k.arity = k'.arity) (h : k.ReadFrom trees) (h' : k'.ReadFrom trees')
    (hothers : List.Forall₂ ReadAlike (parameterNodes trees) (parameterNodes trees')) : k.Same k' where
  mark_eq := hmark
  arity_eq := harity
  parameters := by
    rw [h, h']
    exact forall₂_filterMap_readParameter hothers

/-! ## Overloads -/

/-- Methods and constructors of one type share an id exactly when their names, the numbers of their type parameters
and the parameters that are read are the same. So an index that has one of them takes in the other unless it is
the same. Parameters that take a variable number of arguments are not among those that are read: overloads that
differ in these alone share an id, whatever their number. -/
theorem overload_id_eq_iff {syn syn' : MemberSyntax} {k k' : IdParts} {container : Container}
    {doc doc' : Option String} {m m' : OutlineMember} (h : k.Of syn) (h' : k'.Of syn') (ht : k.Typed)
    (ht' : k'.Typed) (hm : m ∈ syn.members container doc) (hm' : m' ∈ syn'.members container doc') :
    (m.id = m'.id ↔ k.Same k') ∧
      (∀ (x : SymbolIndex) (e e' : IndexEntry), e.key = m.id → e'.key = m'.id →
        (((x.add e).2.add e').1 = true ↔ x.contains m'.id = false ∧ ¬ k.Same k')) ∧
      ∀ trees trees', k.ReadFrom trees → k'.ReadFrom trees' → k.mark = k'.mark → k.arity = k'.arity →
        List.Forall₂ ReadAlike (parameterNodes trees) (parameterNodes trees') → m.id = m'.id := by
  have hid : m.id = m'.id ↔ k.Same k' := by
    rw [h.id_eq hm, h'.id_eq hm', ← IdParts.shown_eq_iff h h' ht ht']
    exact ⟨fun heq => by simpa using heq, fun heq => by rw [heq]⟩
  refine ⟨hid, fun x e e' hkey hkey' => ?_, fun trees trees' hread hread' hmark harity hothers =>
    hid.mpr (.of_parameterNodes hmark harity hread hread' hothers)⟩
  have hheld : (x.add e).2.contains m'.id = true ↔ x.contains m'.id = true ∨ m.id = m'.id := by
    simp only [SymbolIndex.contains_iff, SymbolIndex.get?_add, hkey]
    by_cases heq : m.id = m'.id <;> simp [heq]
  rw [SymbolIndex.add_fst, hkey', Bool.not_eq_true', ← Bool.not_eq_true, hheld, not_or, Bool.not_eq_true, hid]

namespace IdParts.Example

/-- Two overloads, the second of which takes a variable number of further arguments. -/
def text : String := "interface I \x7b void F(int a); void F(int a, params object[] rest); \x7d"

def first : MemberSyntax :=
  ⟨[], [], .method "void" "F" [] [⟨[], "int", "a", "", ⟨1, 22, 1, 27⟩⟩] none, ⟨1, 15, 1, 29⟩⟩

def second : MemberSyntax :=
  ⟨[], [], .method "void" "F" [] [⟨[], "int", "a", "", ⟨1, 37, 1, 42⟩⟩] none, ⟨1, 30, 1, 66⟩⟩

def container : Container :=
  ⟨.interfaceType, "I", "I", "I"⟩

def parts : IdParts :=
  ⟨"F", 0, [⟨"a", "int", none, []⟩]⟩

theorem tokens_text : tokens text =
    [⟨.word, [], "interface".toList, ⟨0, 0⟩, ⟨0, 9⟩⟩, ⟨.word, [' '], ['I'], ⟨0, 10⟩, ⟨0, 11⟩⟩,
      ⟨.symbol, [' '], ['\x7b'], ⟨0, 12⟩, ⟨0, 13⟩⟩, ⟨.word, [' '], "void".toList, ⟨0, 14⟩, ⟨0, 18⟩⟩,
      ⟨.word, [' '], ['F'], ⟨0, 19⟩, ⟨0, 20⟩⟩, ⟨.symbol, [], ['('], ⟨0, 20⟩, ⟨0, 21⟩⟩,
      ⟨.word, [], "int".toList, ⟨0, 21⟩, ⟨0, 24⟩⟩, ⟨.word, [' '], ['a'], ⟨0, 25⟩, ⟨0, 26⟩⟩,
      ⟨.symbol, [], [')'], ⟨0, 26⟩, ⟨0, 27⟩⟩, ⟨.symbol, [], [';'], ⟨0, 27⟩, ⟨0, 28⟩⟩,
      ⟨.word, [' '], "void".toList, ⟨0, 29⟩, ⟨0, 33⟩⟩, ⟨.word, [' '], ['F'], ⟨0, 34⟩, ⟨0, 35⟩⟩,
      ⟨.symbol, [], ['('], ⟨0, 35⟩, ⟨0, 36⟩⟩, ⟨.word, [], "int".toList, ⟨0, 36⟩, ⟨0, 39⟩⟩,
      ⟨.word, [' '], ['a'], ⟨0, 40⟩, ⟨0, 41⟩⟩, ⟨.symbol, [], [','], ⟨0, 41⟩, ⟨0, 42⟩⟩,
      ⟨.word, [' '], "params".toList, ⟨0, 43⟩, ⟨0, 49⟩⟩, ⟨.word, [' '], "object".toList, ⟨0, 50⟩, ⟨0, 56⟩⟩,
      ⟨.symbol, [], ['['], ⟨0, 56⟩, ⟨0, 57⟩⟩, ⟨.symbol, [], [']'], ⟨0, 57⟩, ⟨0, 58⟩⟩,
      ⟨.word, [' '], "rest".toList, ⟨0, 59⟩, ⟨0, 63⟩⟩, ⟨.symbol, [], [')'], ⟨0, 63⟩, ⟨0, 64⟩⟩,
      ⟨.symbol, [], [';'], ⟨0, 64⟩, ⟨0, 65⟩⟩, ⟨.symbol, [' '], ['\x7d'], ⟨0, 66⟩, ⟨0, 67⟩⟩] := by
  decide +kernel

theorem items_text : Item.ofSource text =
    [.type ⟨.interfaceForm, [], [], "I", [], [], [], ⟨1, 1, 1, 68⟩⟩ [.member first, .member second]] := by
  rw [Item.ofSource, tokens_text]
  rfl

/-- What stands between the parentheses of the first method. -/
def firstTrees : List Nest :=
  [.leaf ⟨.word, [], "int".toList, ⟨0, 21⟩, ⟨0, 24⟩⟩, .leaf ⟨.word, [' '], ['a'], ⟨0, 25⟩, ⟨0, 26⟩⟩]

/-- What stands between those of the second. -/
def secondTrees : List Nest :=
  [.leaf ⟨.word, [], "int".toList, ⟨0, 36⟩, ⟨0, 39⟩⟩, .leaf ⟨.word, [' '], ['a'], ⟨0, 40⟩, ⟨0, 41⟩⟩,
    .leaf ⟨.symbol, [], [','], ⟨0, 41⟩, ⟨0, 42⟩⟩, .leaf ⟨.word, [' '], "params".toList, ⟨0, 43⟩, ⟨0, 49⟩⟩,
    .leaf ⟨.word, [' '], "object".toList, ⟨0, 50⟩, ⟨0, 56⟩⟩,
    .group ⟨.symbol, [], ['['], ⟨0, 56⟩, ⟨0, 57⟩⟩ [] ⟨.symbol, [], [']'], ⟨0, 57⟩, ⟨0, 58⟩⟩,
    .leaf ⟨.word, [' '], "rest".toList, ⟨0, 59⟩, ⟨0, 63⟩⟩]

theorem readAlike_trees :
    List.Forall₂ ReadAlike (parameterNodes firstTrees) (parameterNodes secondTrees) := by
  have hfirst : parameterNodes firstTrees = [firstTrees] := by rfl
  have hsecond : parameterNodes secondTrees = [secondTrees.take 2] := by rfl
  rw [hfirst, hsecond]
  have halike : ReadAlike firstTrees (secondTrees.take 2) := by
    have hread : (readParameter firstTrees).map (·.parameter) = some ⟨"a", "int", none, []⟩ := by
      decide +kernel
    have hread' : (readParameter (secondTrees.take 2)).map (·.parameter) = some ⟨"a", "int", none, []⟩ := by
      decide +kernel
    rw [ReadAlike, hread, hread']
    exact .some ⟨rfl, Iff.rfl⟩
  exact .cons halike .nil

theorem parts_of {p : ParameterSyntax} {span : Span} (hp : p.parameter = ⟨"a", "int", none, []⟩) :
    parts.Of ⟨[], [], .method "void" "F" [] [p] none, span⟩ := by
  have hword : IsWord "F" := ⟨text, ⟨.word, [' '], ['F'], ⟨0, 19⟩, ⟨0, 20⟩⟩, by rw [tokens_text]; simp, rfl, rfl⟩
  have h : IdParts.Of ⟨[], [], .method "void" "F" [] [p] none, span⟩
      ⟨"F", ([] : List String).length, [p].map (·.parameter)⟩ := .method rfl hword
  rw [List.map_singleton, hp] at h
  exact h

end IdParts.Example

open IdParts.Example in
theorem overload_id_eq_iff_params :
    Item.ofSource text =
        [.type ⟨.interfaceForm, [], [], "I", [], [], [], ⟨1, 1, 1, 68⟩⟩ [.member first, .member second]] ∧
      parts.Of first ∧ parts.Of second ∧ parts.Typed ∧
      parts.ReadFrom firstTrees ∧ (declaredParameters firstTrees).length = 1 ∧
      parts.ReadFrom secondTrees ∧ (declaredParameters secondTrees).length = 2 ∧
      ∃ m ∈ first.members container none, ∃ m' ∈ second.members container none, m.id = m'.id ∧
        ∀ (x : SymbolIndex) (e e' : IndexEntry), e.key = m.id → e'.key = m'.id →
          ((x.add e).2.add e').1 = false := by
  have hfirst : parts.Of first := parts_of (by decide +kernel)
  have hsecond : parts.Of second := parts_of (by decide +kernel)
  have htyped : parts.Typed := by
    intro p hp
    obtain rfl := List.mem_singleton.mp hp
    decide +kernel
  have hsame : parts.Same parts := ⟨rfl, rfl, .cons ⟨rfl, Iff.rfl⟩ .nil⟩
  obtain ⟨m, hm⟩ : ∃ m, m ∈ first.members container none := ⟨_, List.mem_singleton_self _⟩
  obtain ⟨m', hm'⟩ : ∃ m, m ∈ second.members container none := ⟨_, List.mem_singleton_self _⟩
  have hread : parts.ReadFrom firstTrees := by
    rw [IdParts.ReadFrom]
    decide +kernel
  have hread' : parts.ReadFrom secondTrees := by
    rw [IdParts.ReadFrom]
    decide +kernel
  obtain ⟨-, hadd, hid⟩ := overload_id_eq_iff hfirst hsecond htyped htyped hm hm'
  refine ⟨items_text, hfirst, hsecond, htyped, hread, by decide +kernel, hread', by decide +kernel, m, hm, m', hm',
    hid _ _ hread hread' rfl rfl readAlike_trees, fun x e e' hkey hkey' => ?_⟩
  exact Bool.eq_false_iff.mpr fun hadded => ((hadd x e e' hkey hkey').mp hadded).2 hsame

end SolutionAtlas.CSharp
