-- SUMMARY: Base chains of a model, and that the longest one is followed.
import Mathlib
import SolutionAtlas.Query.Hierarchy

/-!
# Base chains

A base type is named and not pointed to. The next type on the way up is the first class or record of
the model with the simple name of the base, so the way may run in circles. A base chain ends behind the
first name that it comes to again; all base chains of a type are prefixes of the longest one.
-/

namespace SolutionAtlas

/-! ## The way up -/

/-- A class or record with a simple name. -/
def TypeSymbol.IsClassNamed (t : TypeSymbol) (simple : String) : Prop :=
  (t.symbol.kind = .classType ∨ t.symbol.kind = .recordType) ∧ simpleTypeName t.symbol.name = simple

namespace Solution

/-- The first class or record with a simple name, in the order of the model. -/
def IsFirstClass (s : Solution) (simple : String) (t : TypeSymbol) : Prop :=
  t.IsClassNamed simple ∧ ∃ before after, (s.types.map (·.2.2)) = before ++ t :: after ∧
    ∀ u ∈ before, ¬u.IsClassNamed simple

/-- The first class that a base stands for has `next` as its first base. -/
def LeadsUp (s : Solution) (base next : String) : Prop :=
  ∃ t, s.IsFirstClass (simpleTypeName base) t ∧ t.baseTypes.head? = some next

/-- A way up from a type, of limited length. No name on it, but perhaps that of its last base, is among
those seen before or comes twice. -/
structure IsBaseChain (s : Solution) (limit : Nat) (seen : List String) (t : TypeSymbol)
    (chain : List String) : Prop where
  short : chain.length ≤ limit
  start : ∀ base ∈ chain.head?, t.baseTypes.head? = some base
  next : chain.IsChain s.LeadsUp
  fresh : ∀ base ∈ chain.dropLast, simpleTypeName base ∉ seen
  distinct : (chain.dropLast.map simpleTypeName).Nodup

variable {s : Solution} {n : Nat} {seen : List String} {t : TypeSymbol} {base : String}
  {chain : List String}

namespace IsBaseChain

theorem nil (s : Solution) (n : Nat) (seen : List String) (t : TypeSymbol) : s.IsBaseChain n seen t [] where
  short := Nat.zero_le n
  start := by simp
  next := .nil
  fresh := by simp
  distinct := .nil

theorem singleton (h : t.baseTypes.head? = some base) : s.IsBaseChain (n + 1) seen t [base] where
  short := Nat.le_add_left 1 n
  start := by simpa using h
  next := .singleton base
  fresh := by simp
  distinct := .nil

/-- A base chain is one base, or a base with a name not seen before and a base chain of the first class
of that name. -/
theorem cons_iff :
    s.IsBaseChain (n + 1) seen t (base :: chain) ↔
      t.baseTypes.head? = some base ∧
        (chain = [] ∨ simpleTypeName base ∉ seen ∧ ∃ d, s.IsFirstClass (simpleTypeName base) d ∧
          s.IsBaseChain n (simpleTypeName base :: seen) d chain) := by
  constructor
  · intro h
    refine ⟨h.start base rfl, ?_⟩
    cases chain with
    | nil => exact .inl rfl
    | cons next rest =>
      obtain ⟨⟨d, hfirst, hnext⟩, hrest⟩ := List.isChain_cons_cons.mp h.next
      have hfresh := h.fresh
      have hdistinct := h.distinct
      rw [List.dropLast_cons_cons] at hfresh hdistinct
      rw [List.map_cons, List.nodup_cons] at hdistinct
      refine .inr ⟨hfresh base List.mem_cons_self, d, hfirst, ?_⟩
      refine ⟨Nat.le_of_succ_le_succ h.short, ?_, hrest, ?_, hdistinct.2⟩
      · rintro _ ⟨⟩
        exact hnext
      · intro other hother hseen
        obtain hsame | hseen := List.mem_cons.mp hseen
        · exact hdistinct.1 (hsame ▸ List.mem_map_of_mem hother)
        · exact hfresh other (List.mem_cons_of_mem base hother) hseen
  · rintro ⟨hbase, rfl | ⟨hnew, d, hfirst, h⟩⟩
    · exact singleton hbase
    · cases chain with
      | nil => exact singleton hbase
      | cons next rest =>
        have hup : s.LeadsUp base next := ⟨d, hfirst, h.start next rfl⟩
        refine ⟨Nat.succ_le_succ h.short, by simpa using hbase, .cons_cons hup h.next, ?_, ?_⟩
        · rw [List.dropLast_cons_cons]
          intro other hother
          obtain rfl | hother := List.mem_cons.mp hother
          · exact hnew
          · exact fun hseen => h.fresh other hother (List.mem_cons_of_mem _ hseen)
        · rw [List.dropLast_cons_cons, List.map_cons, List.nodup_cons]
          refine ⟨fun hin => ?_, h.distinct⟩
          obtain ⟨other, hother, hsame⟩ := List.mem_map.mp hin
          refine h.fresh other hother ?_
          rw [hsame]
          exact List.mem_cons_self

end IsBaseChain

end Solution

/-! ## The longest base chain -/

namespace LoadedSolution

variable {l : LoadedSolution} {n : Nat} {seen : List String} {t : TypeSymbol} {simple : String}
  {chain : List String}

theorem classNamed?_eq_some_iff : l.classNamed? simple = some t ↔ l.solution.IsFirstClass simple t := by
  have htest (u : TypeSymbol) :
      ((u.symbol.kind == .classType || u.symbol.kind == .recordType) &&
        simpleTypeName u.symbol.name == simple) = true ↔ u.IsClassNamed simple := by
    simp [TypeSymbol.IsClassNamed]
  simp only [classNamed?, List.find?_eq_some_iff_append, Solution.IsFirstClass, htest, Bool.not_eq_true',
    ← Bool.not_eq_true]

theorem baseChainFrom_isBaseChain (l : LoadedSolution) (n : Nat) (seen : List String) (t : TypeSymbol) :
    l.solution.IsBaseChain n seen t (l.baseChainFrom n seen t) := by
  fun_induction baseChainFrom l n seen t with
  | case1 seen t => exact .nil _ _ _ _
  | case2 n seen t hbases => exact .nil _ _ _ _
  | case3 n seen t base bases hbases simple hseen =>
    exact .singleton (List.head?_eq_some_iff.mpr ⟨bases, hbases⟩)
  | case4 n seen t base bases hbases simple hnew next hnext ih =>
    have hbase : t.baseTypes.head? = some base := List.head?_eq_some_iff.mpr ⟨bases, hbases⟩
    have hfresh : simple ∉ seen := by simpa using hnew
    have hfirst := classNamed?_eq_some_iff.mp hnext
    exact Solution.IsBaseChain.cons_iff.mpr ⟨hbase, .inr ⟨hfresh, next, hfirst, ih⟩⟩
  | case5 n seen t base bases hbases simple hnew hnone =>
    exact .singleton (List.head?_eq_some_iff.mpr ⟨bases, hbases⟩)

theorem prefix_baseChainFrom (h : l.solution.IsBaseChain n seen t chain) :
    chain <+: l.baseChainFrom n seen t := by
  induction n generalizing seen t chain with
  | zero =>
    rw [List.length_eq_zero_iff.mp (Nat.le_zero.mp h.short)]
    exact List.nil_prefix
  | succ n ih =>
    cases chain with
    | nil => exact List.nil_prefix
    | cons base chain =>
      obtain ⟨hbase, hrest⟩ := Solution.IsBaseChain.cons_iff.mp h
      obtain ⟨bases, hbases⟩ := List.head?_eq_some_iff.mp hbase
      obtain rfl | ⟨hnew, d, hfirst, hchain⟩ := hrest
      · rw [baseChainFrom, hbases]
        dsimp only
        split
        · exact List.prefix_rfl
        · split
          · exact (List.prefix_cons_inj _).mpr List.nil_prefix
          · exact List.prefix_rfl
      · have hnext : l.classNamed? (simpleTypeName base) = some d := classNamed?_eq_some_iff.mpr hfirst
        rw [baseChainFrom, hbases]
        simp only [hnext, List.contains_eq_mem, hnew, decide_false, Bool.false_eq_true, if_false]
        exact (List.prefix_cons_inj base).mpr (ih hchain)

/-- On every model the base chain of a type is the longest one: it is a base chain of at most 32 bases,
and every other is a prefix of it. It is empty only when the type has no base. -/
theorem baseChain_longest (l : LoadedSolution) (t : TypeSymbol) :
    l.solution.IsBaseChain 32 [simpleTypeName t.symbol.name] t (l.baseChain t) ∧
      (∀ chain, l.solution.IsBaseChain 32 [simpleTypeName t.symbol.name] t chain →
        chain <+: l.baseChain t) ∧
      (l.baseChain t = [] ↔ t.baseTypes = []) := by
  refine ⟨baseChainFrom_isBaseChain l _ _ t, fun chain h => prefix_baseChainFrom h, ?_⟩
  constructor
  · intro hempty
    cases hbases : t.baseTypes with
    | nil => rfl
    | cons base bases =>
      have hone : [base] <+: l.baseChain t := prefix_baseChainFrom (.singleton (by rw [hbases]; rfl))
      rw [hempty] at hone
      cases List.prefix_nil.mp hone
  · intro hbases
    rw [baseChain, maxBaseChain, baseChainFrom, hbases]

namespace Example

def classWithBase (name base : String) : TypeSymbol :=
  ⟨⟨some name, name, name, .classType, .publicAccess, [], none, []⟩, [], [base], [], false, false, false,
    false, "/s/A.cs", "A.cs", 1⟩

/-- Two classes that are the base of each other. -/
def circular : Solution where
  name := "S"
  path := "/s/S.sln"
  projects := [{
    name := "P"
    projectFilePath := "/s/P.csproj"
    namespaces := [⟨"N", [classWithBase "A" "N.B<int>", classWithBase "B" "A"], "/s/A.cs"⟩] }]

end Example

example : (ofSolution Example.circular none).baseChain (Example.classWithBase "A" "N.B<int>") =
    ["N.B<int>", "A"] := by
  decide +kernel

end LoadedSolution

end SolutionAtlas
