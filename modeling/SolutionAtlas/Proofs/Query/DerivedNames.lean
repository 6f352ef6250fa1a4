-- SUMMARY: Which segment of a name is taken for the simple name of a type, and the derived types that are found by it.
import Mathlib
import SolutionAtlas.Proofs.Query.BaseChain
import SolutionAtlas.Proofs.Text.Occurrence

/-!
# Simple names

The simple name of a type is read off the text that names it: what stands before the first bracket, and of that what
is behind the last point. It is a segment of the name, but the last one only as long as no segment in front of it has
type arguments. Types below another one are found in the index by that segment.
-/

namespace SolutionAtlas

/-- A text without points, opening brackets and blanks. All identifiers are. -/
def IsUnbroken (s : String) : Prop :=
  ∀ c ∈ s.toList, c ≠ '.' ∧ c ≠ '<' ∧ Text.isBlank c = false

instance (s : String) : Decidable (IsUnbroken s) :=
  List.decidableBAll _ _

/-- A segment in the name of a type, as `Inner<C>` in `Outer<A.B>.Inner<C>`. -/
structure NameSegment where
  name : String
  /-- What stands between the outer brackets, if the segment has type arguments. These may have brackets and points
  of their own. -/
  arguments : Option String
  isUnbroken : IsUnbroken name

namespace NameSegment

variable (s : NameSegment)

def text : String :=
  match s.arguments with
  | none => s.name
  | some arguments => s.name ++ "<" ++ arguments ++ ">"

theorem not_mem_name : '.' ∉ s.name.toList ∧ '<' ∉ s.name.toList :=
  ⟨fun h => (s.isUnbroken _ h).1 rfl, fun h => (s.isUnbroken _ h).2.1 rfl⟩

/-- Behind the name of a segment, there is nothing or a bracket. -/
theorem exists_text_eq :
    ∃ behind, s.text.toList = s.name.toList ++ behind ∧
      (if s.arguments.isSome then behind.head? = some '<' else behind = []) := by
  unfold text
  cases s.arguments with
  | none => exact ⟨[], by simp⟩
  | some arguments => exact ⟨'<' :: (arguments.toList ++ ['>']), by simp⟩

end NameSegment

/-- The name of a type: segments with points between them. -/
structure TypeName where
  outer : List NameSegment
  last : NameSegment

namespace TypeName

variable (n : TypeName)

def text : String :=
  ".".intercalate ((n.outer ++ [n.last]).map (·.text))

/-- The first segment that has type arguments, and the last one if none before it has. -/
def cut : NameSegment :=
  (n.outer.find? (·.arguments.isSome)).getD n.last

/-- What is written in front of the segment that is cut. -/
def lead : List Char :=
  (n.outer.takeWhile (!·.arguments.isSome)).flatMap fun s => s.name.toList ++ ['.']

theorem not_mem_lead : '<' ∉ n.lead ∧ ∀ c ∈ n.lead, Text.isBlank c = false := by
  have hmem {c : Char} (h : c ∈ n.lead) : c = '.' ∨ ∃ s : NameSegment, c ∈ s.name.toList := by
    obtain ⟨s, -, hc⟩ := List.mem_flatMap.mp h
    rcases List.mem_append.mp hc with hc | hc
    · exact .inr ⟨s, hc⟩
    · exact .inl (List.mem_singleton.mp hc)
  constructor
  · intro h
    rcases hmem h with hpoint | ⟨s, hs⟩
    · cases hpoint
    · exact s.not_mem_name.2 hs
  · intro c h
    rcases hmem h with rfl | ⟨s, hs⟩
    · decide
    · exact (s.isUnbroken c hs).2.2

theorem toList_text_cons (s : NameSegment) (outer : List NameSegment) (last : NameSegment) :
    (⟨s :: outer, last⟩ : TypeName).text.toList =
      s.text.toList ++ '.' :: (⟨outer, last⟩ : TypeName).text.toList := by
  rw [text, text, String.toList_intercalate, String.toList_intercalate]
  cases outer <;> simp

theorem lead_cons {s : NameSegment} (outer : List NameSegment) (last : NameSegment) :
    (⟨s :: outer, last⟩ : TypeName).lead =
      if s.arguments.isSome then [] else s.name.toList ++ '.' :: (⟨outer, last⟩ : TypeName).lead := by
  rw [lead, List.takeWhile_cons]
  cases s.arguments.isSome with
  | true => rfl
  | false => simp [lead]

theorem cut_cons {s : NameSegment} (outer : List NameSegment) (last : NameSegment) :
    (⟨s :: outer, last⟩ : TypeName).cut = if s.arguments.isSome then s else (⟨outer, last⟩ : TypeName).cut := by
  cases hs : s.arguments.isSome <;> simp [cut, hs]

/-- The text of a name, taken apart at the segment that is cut. -/
theorem exists_text_eq :
    ∃ behind, n.text.toList = n.lead ++ (n.cut.name.toList ++ behind) ∧
      (behind = [] ∨ behind.head? = some '<') := by
  obtain ⟨outer, last⟩ := n
  induction outer with
  | nil =>
    obtain ⟨behind, htext, hbehind⟩ := last.exists_text_eq
    refine ⟨behind, by simpa [text, lead, cut] using htext, ?_⟩
    split at hbehind
    · exact .inr hbehind
    · exact .inl hbehind
  | cons s outer ih =>
    obtain ⟨behind, htext, hbehind⟩ := s.exists_text_eq
    obtain ⟨later, hlater, hend⟩ := ih
    rw [toList_text_cons, lead_cons, cut_cons, htext]
    split at hbehind <;> rename_i hs
    · rw [if_pos hs, if_pos hs]
      refine ⟨behind ++ '.' :: (⟨outer, last⟩ : TypeName).text.toList, ?_, .inr ?_⟩
      · rw [List.nil_append, List.append_assoc]
      · rw [List.head?_append, hbehind, Option.some_or]
    · rw [if_neg hs, if_neg hs]
      refine ⟨later, ?_, hend⟩
      rw [hbehind, hlater, List.append_nil, List.append_assoc, List.cons_append]

/-- The simple name is the name of the segment that is cut. -/
theorem simpleTypeName_text : simpleTypeName n.text = n.cut.name := by
  obtain ⟨behind, htext, hbehind⟩ := n.exists_text_eq
  have hblank : ∀ c ∈ n.cut.name.toList, Text.isBlank c = false := fun c hc => (n.cut.isUnbroken c hc).2.2
  have hfront : '<' ∉ n.lead ++ n.cut.name.toList := by
    rw [List.mem_append, not_or]
    exact ⟨n.not_mem_lead.1, n.cut.not_mem_name.2⟩
  have hbefore : Text.beforeFirst '<' n.text.toList = n.lead ++ n.cut.name.toList := by
    rw [htext, ← List.append_assoc]
    rcases hbehind with rfl | hhead
    · rw [List.append_nil, Text.beforeFirst_eq_self hfront]
    · obtain ⟨rest, rfl⟩ := List.head?_eq_some_iff.mp hhead
      exact Text.beforeFirst_append hfront rest
  have hstripped : stripGenericSuffix n.text = String.ofList (n.lead ++ n.cut.name.toList) := by
    rw [stripGenericSuffix, hbefore, Text.trimChars_eq_self]
    intro c hc
    rcases List.mem_append.mp hc with hc | hc
    · exact n.not_mem_lead.2 c hc
    · exact hblank c hc
  have hafter : Text.afterLast '.' (n.lead ++ n.cut.name.toList) = n.cut.name.toList := by
    rw [lead]
    rcases List.eq_nil_or_concat' (n.outer.takeWhile (!·.arguments.isSome)) with hnil | ⟨front, s, hconcat⟩
    · rw [hnil, List.flatMap_nil, List.nil_append, Text.afterLast_eq_self n.cut.not_mem_name.1]
    · rw [hconcat, List.flatMap_append, List.flatMap_singleton, List.append_assoc, List.append_assoc,
        List.singleton_append, ← List.append_assoc, Text.afterLast_append n.cut.not_mem_name.1]
  rw [simpleTypeName, hstripped, String.toList_ofList, hafter, Text.trimChars_eq_self hblank, String.ofList_toList]

/-- Without type arguments in front of the last segment, the last segment is cut. -/
theorem cut_eq_last (h : ∀ s ∈ n.outer, s.arguments = none) : n.cut = n.last := by
  rw [cut, List.find?_eq_none.mpr fun s hs => by simp [h s hs]]
  rfl

end TypeName

namespace LoadedSolution

/-- The types that are found by name are the other ones with the simple name of the entry in their base lists. -/
theorem mem_derivedByName_iff {l : LoadedSolution} {e : IndexEntry} {r : SymbolRef} :
    r ∈ l.derivedByName e ↔ ∃ d ∈ l.index.snapshot, d.isType = true ∧ d.key ≠ e.key ∧
      (∃ name ∈ d.supertypes, simpleTypeName name = simpleTypeName e.symbol.name) ∧
      SymbolRef.ofSymbol d.symbol = r := by
  simp [derivedByName, and_assoc]

theorem derived_of_index {l : LoadedSolution} {e : IndexEntry} {isInterface : Bool} {q : DerivedQuery}
    {found : List SymbolRef} (h : l.derived e isInterface q = .ok (found, .index)) : found = l.derivedByName e := by
  unfold derived at h
  split at h
  · cases h
    rfl
  · split at h
    · cases h
    · cases h
    · cases h
      rfl

/-- The simple name of a type is the name of the first segment that has type arguments, and of the last one when no
segment before it has any. Wherever the types below an entry are found by name, each one that lists the
name is among them if that segment is called like the entry. -/
theorem listed_by_simple_name (n : TypeName) :
    simpleTypeName n.text = n.cut.name ∧
      ((∀ s ∈ n.outer, s.arguments = none) → simpleTypeName n.text = n.last.name) ∧
      ∀ (l : LoadedSolution) (e d : IndexEntry) (isInterface : Bool) (q : DerivedQuery) (found : List SymbolRef),
        l.derived e isInterface q = .ok (found, .index) → d ∈ l.index.snapshot → d.isType = true → d.key ≠ e.key →
          n.text ∈ d.supertypes → n.cut.name = simpleTypeName e.symbol.name →
            SymbolRef.ofSymbol d.symbol ∈ found := by
  refine ⟨n.simpleTypeName_text, ?_, ?_⟩
  · intro hplain
    rw [n.simpleTypeName_text, n.cut_eq_last hplain]
  · intro l e d isInterface q found hfound hd htype hkey hname hcut
    rw [derived_of_index hfound, mem_derivedByName_iff]
    exact ⟨d, hd, htype, hkey, ⟨n.text, hname, n.simpleTypeName_text.trans hcut⟩, rfl⟩

namespace Example

/-- The name of a generic class within a generic class. -/
def nested : TypeName where
  outer := [⟨"Outer", some "A.B", by decide +kernel⟩]
  last := ⟨"Inner", some "C", by decide +kernel⟩

/-- Two classes, one within the other, and a class below the inner one. -/
def nesting : Solution where
  name := "S"
  path := "/s/S.sln"
  projects := [{
    name := "P"
    projectFilePath := "/s/P.csproj"
    namespaces := [⟨"N", [classWithBase "Outer" "object", classWithBase "Outer.Inner" "object",
      classWithBase "D" nested.text], "/s/A.cs"⟩] }]

def classEntry (name base : String) : IndexEntry :=
  .ofType "/s/P.csproj" "N" (classWithBase name base)

end Example

/-- A class below the inner of two classes is found below the outer one. -/
theorem listed_by_simple_name_nested :
    Example.nested.text = "Outer<A.B>.Inner<C>" ∧ simpleTypeName Example.nested.text = "Outer" ∧
      simpleTypeName "Outer.Inner" = Example.nested.last.name ∧
      ∃ found, (ofSolution Example.nesting none).derived (Example.classEntry "Outer" "object") false .hierarchy =
          .ok (found, .index) ∧
        SymbolRef.ofSymbol (Example.classEntry "D" "Outer<A.B>.Inner<C>").symbol ∈ found ∧
        (ofSolution Example.nesting none).derived (Example.classEntry "Outer.Inner" "object") false .hierarchy =
          .ok ([], .index) := by
  obtain ⟨hname, -, hlisted⟩ := listed_by_simple_name Example.nested
  refine ⟨by decide +kernel, hname, by decide +kernel, _, rfl, ?_, by decide +kernel⟩
  exact hlisted (ofSolution Example.nesting none) (Example.classEntry "Outer" "object") _ false .hierarchy _ rfl
    (by decide +kernel) rfl (by decide +kernel) (by decide +kernel) (by decide +kernel)

end LoadedSolution

end SolutionAtlas
