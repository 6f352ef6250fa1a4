-- SUMMARY: What merged conventions say, rule by rule; grouping does not matter, nor does computing totals again.
import Mathlib
import SolutionAtlas.Model.Solution
import SolutionAtlas.Proofs.Model.Merge

/-!
# Conventions of a solution

The conventions of projects are merged in order. Every rule of the merge associates, and conventions of which
nothing is known can be merged in without effect; so a list of projects can be merged in parts. What comes out
is told by `Conventions.sumOf` from the whole list, without merging.
-/

namespace SolutionAtlas

/-! ## Styles -/

namespace NamespaceStyle

/-- The style of all parts that have one; parts of different styles are mixed. -/
def common? : List NamespaceStyle → Option NamespaceStyle
  | [] => none
  | s :: rest => some (if ∀ t ∈ rest, t = s then s else .mixed)

@[simp] theorem merge?_none (a : Option NamespaceStyle) : merge? a none = a := by
  cases a <;> rfl

theorem merge?_assoc (a b c : Option NamespaceStyle) :
    merge? (merge? a b) c = merge? a (merge? b c) := by
  cases a with
  | none => rfl
  | some a =>
    cases b with
    | none => rfl
    | some b =>
      cases c with
      | none => simp
      | some c => cases a <;> cases b <;> cases c <;> rfl

theorem common?_concat (styles : List NamespaceStyle) (s : NamespaceStyle) :
    common? (styles ++ [s]) = merge? (common? styles) (some s) := by
  cases styles with
  | nil => rfl
  | cons t rest =>
    simp only [List.cons_append, common?, merge?]
    by_cases hsame : ∀ u ∈ rest, u = t
    · by_cases hs : s = t
      · have hagree : ∀ u ∈ rest ++ [s], u = t := by simpa [hs, or_imp, forall_and] using hsame
        rw [if_pos hagree, if_pos hsame, if_pos hs.symm]
      · have hdiffer : ¬∀ u ∈ rest ++ [s], u = t := fun h => hs (h s (by simp))
        rw [if_neg hdiffer, if_pos hsame, if_neg (Ne.symm hs)]
    · have hdiffer : ¬∀ u ∈ rest ++ [s], u = t :=
        fun h => hsame fun u hu => h u (List.mem_append_left _ hu)
      rw [if_neg hdiffer, if_neg hsame]
      split <;> rfl

end NamespaceStyle

namespace Conventions

/-! ## Names -/

/-- The longest of several names, in bytes; of equally long ones the first. -/
def firstLongest? (names : List String) : Option String :=
  names.argmax (·.utf8ByteSize)

@[simp] theorem longerName?_none (a : Option String) : longerName? a none = a := by
  cases a <;> rfl

theorem longerName?_assoc (a b c : Option String) :
    longerName? (longerName? a b) c = longerName? a (longerName? b c) := by
  cases a with
  | none => rfl
  | some a =>
    cases b with
    | none => rfl
    | some b =>
      cases c with
      | none => simp
      | some c =>
        simp only [longerName?]
        by_cases hab : a.utf8ByteSize < b.utf8ByteSize
        · by_cases hbc : b.utf8ByteSize < c.utf8ByteSize
          · have hac := lt_trans hab hbc
            simp [hab, hbc, hac]
          · simp [hab, hbc]
        · by_cases hbc : b.utf8ByteSize < c.utf8ByteSize
          · simp [hab, hbc]
          · have hac : ¬a.utf8ByteSize < c.utf8ByteSize := by omega
            simp [hab, hbc, hac]

theorem firstLongest?_concat (names : List String) (name : String) :
    firstLongest? (names ++ [name]) = longerName? (firstLongest? names) (some name) := by
  rw [firstLongest?, firstLongest?, List.argmax_concat]
  cases names.argmax (·.utf8ByteSize) <;> rfl

/-! ## Merging in parts -/

theorem documentationFiles_merge (a b : Conventions) :
    (a.merge b).documentationFiles = unionInto a.documentationFiles b.documentationFiles := rfl

/-- The path is that of the first part that has an editor configuration. -/
theorem editorConfigPath_merge (a b : Conventions) :
    (a.merge b).editorConfigPath =
      if a.hasEditorConfig then a.editorConfigPath
      else if b.hasEditorConfig then b.editorConfigPath else a.editorConfigPath := by
  simp only [merge]
  cases a.hasEditorConfig <;> simp

theorem merge_empty (a : Conventions) : a.merge {} = a := by
  simp [merge]

theorem merge_assoc (a b c : Conventions) : (a.merge b).merge c = a.merge (b.merge c) := by
  have hpath : ((a.merge b).merge c).editorConfigPath = (a.merge (b.merge c)).editorConfigPath := by
    by_cases ha : a.hasEditorConfig = true
    · simp [merge, ha]
    · by_cases hb : b.hasEditorConfig = true
      · simp [merge, ha, hb]
      · by_cases hc : c.hasEditorConfig = true
        · simp [merge, ha, hb, hc]
        · simp [merge, ha, hb, hc]
  have hdocuments :
      ((a.merge b).merge c).documentationFiles = (a.merge (b.merge c)).documentationFiles :=
    unionInto_assoc _ _ _
  simp only [merge, mk.injEq] at hpath hdocuments ⊢
  exact ⟨Bool.or_assoc _ _ _, hpath, Bool.or_assoc _ _ _, Bool.or_assoc _ _ _,
    longerName?_assoc _ _ _, NamespaceStyle.merge?_assoc _ _ _, Option.or_assoc, hdocuments⟩

instance : Std.Associative merge := ⟨merge_assoc⟩

theorem foldl_merge (a : Conventions) (cs : List Conventions) :
    cs.foldl merge a = a.merge (cs.foldl merge {}) := by
  conv_lhs => rw [← merge_empty a]
  exact List.foldl_assoc

/-! ## The whole list -/

/-- What a list of conventions says: there is an editor configuration when some project has one, the first such
project giving its path; a switch is on when it is on somewhere; the default namespace is the first of the
longest; the style is the one that all known styles agree on, or mixed; the test framework is the first known
one; every document is listed where it is named first. -/
def sumOf (cs : List Conventions) : Conventions where
  hasEditorConfig := cs.any (·.hasEditorConfig)
  editorConfigPath := (cs.find? (·.hasEditorConfig)).bind (·.editorConfigPath)
  nullableEnabled := cs.any (·.nullableEnabled)
  implicitUsingsEnabled := cs.any (·.implicitUsingsEnabled)
  defaultNamespace := firstLongest? (cs.filterMap (·.defaultNamespace))
  namespaceStyle := NamespaceStyle.common? (cs.filterMap (·.namespaceStyle))
  testFramework := cs.findSome? (·.testFramework)
  documentationFiles := firstOfEach id (cs.flatMap (·.documentationFiles))

section Concat

variable (cs : List Conventions) (c : Conventions)

theorem editorConfigPath_sumOf_concat :
    (sumOf (cs ++ [c])).editorConfigPath = ((sumOf cs).merge c).editorConfigPath := by
  rw [editorConfigPath_merge]
  simp only [sumOf, List.find?_append]
  cases hfirst : cs.find? (·.hasEditorConfig) with
  | some d =>
    have hsome : cs.any (·.hasEditorConfig) = true := by
      rw [List.any_eq_true]
      exact ⟨d, List.mem_of_find?_eq_some hfirst, List.find?_some hfirst⟩
    simp [hsome]
  | none =>
    have hnone : cs.any (·.hasEditorConfig) = false := by simpa using hfirst
    cases hc : c.hasEditorConfig <;> simp [hnone, hc]

theorem defaultNamespace_sumOf_concat :
    (sumOf (cs ++ [c])).defaultNamespace = ((sumOf cs).merge c).defaultNamespace := by
  simp only [sumOf, merge, List.filterMap_append]
  cases hname : c.defaultNamespace with
  | none => simp [hname]
  | some name => simpa [hname] using firstLongest?_concat _ name

theorem namespaceStyle_sumOf_concat :
    (sumOf (cs ++ [c])).namespaceStyle = ((sumOf cs).merge c).namespaceStyle := by
  simp only [sumOf, merge, List.filterMap_append]
  cases hstyle : c.namespaceStyle with
  | none => simp [hstyle]
  | some style => simpa [hstyle] using NamespaceStyle.common?_concat _ style

theorem documentationFiles_sumOf_concat :
    (sumOf (cs ++ [c])).documentationFiles = ((sumOf cs).merge c).documentationFiles := by
  rw [documentationFiles_merge, unionInto_eq, unionOn]
  simp only [sumOf, List.flatMap_append, List.flatMap_singleton, firstOfEach_append]
  congr 1
  apply firstUnseen_congr
  intro d
  exact mem_keys_firstOfEach.symm

theorem sumOf_concat : sumOf (cs ++ [c]) = (sumOf cs).merge c := by
  have hpath := editorConfigPath_sumOf_concat cs c
  have hname := defaultNamespace_sumOf_concat cs c
  have hstyle := namespaceStyle_sumOf_concat cs c
  have hdocuments := documentationFiles_sumOf_concat cs c
  simp only [sumOf, merge, mk.injEq] at hpath hname hstyle hdocuments ⊢
  exact ⟨by simp, hpath, by simp, by simp, hname, hstyle, by simp [List.findSome?_append], hdocuments⟩

end Concat

theorem foldl_merge_eq_sumOf (cs : List Conventions) : cs.foldl merge {} = sumOf cs := by
  induction cs using List.reverseRecOn with
  | nil => rfl
  | append_singleton cs c ih =>
    rw [List.foldl_append, ih]
    exact (sumOf_concat cs c).symm

end Conventions

/-- A test framework that was known before is kept only where the projects have none, so it is there to be
kept the next time. -/
theorem Solution.withTotals_withTotals (s : Solution) : s.withTotals.withTotals = s.withTotals := by
  simp [withTotals, ← Option.or_assoc]

/-- Merging conventions in order gives what the whole list says. Hence two lists may be merged apart and their
results together, and the totals of a solution stay when they are computed again. -/
theorem Conventions.merged_in_order :
    (∀ cs : List Conventions, cs.foldl merge {} = sumOf cs) ∧
      (∀ xs ys : List Conventions,
        (xs ++ ys).foldl merge {} = (xs.foldl merge {}).merge (ys.foldl merge {})) ∧
      ∀ s : Solution, s.withTotals.withTotals = s.withTotals := by
  refine ⟨foldl_merge_eq_sumOf, ?_, Solution.withTotals_withTotals⟩
  intro xs ys
  rw [List.foldl_append]
  exact foldl_merge _ ys

/-- Both names have the same length, and the first one stays. -/
example :
    [{ defaultNamespace := some "App.Web", namespaceStyle := some .fileScoped },
      { defaultNamespace := some "App.Api", namespaceStyle := some .blockScoped,
        documentationFiles := ["README.md", "README.md"] }].foldl Conventions.merge {} =
      { defaultNamespace := some "App.Web", namespaceStyle := some .mixed,
        documentationFiles := ["README.md"] } := by
  decide +kernel

end SolutionAtlas
