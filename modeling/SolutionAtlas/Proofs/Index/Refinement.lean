-- SUMMARY: A symbol index behaves as a plain finite map from keys to entries, over every run of commands.
import Mathlib
import SolutionAtlas.Proofs.Index.Consistency

/-!
# The symbol index as a finite map

The table of names of an index only makes look-ups by name fast. Seen from outside, an index is a
finite map from keys to entries: every command gives the same answer on both, and after every run
each look-up can be answered from the map alone.
-/

namespace SolutionAtlas

/-- A plain finite map from keys to entries. -/
abbrev EntryMap := Std.ExtTreeMap String IndexEntry

namespace EntryMap

/-- The entries, in ascending order of keys. -/
def entries (m : EntryMap) : List IndexEntry :=
  m.toList.map (·.2)

/-- Inserts entries in order, those whose key is absent. -/
def insertAll (m : EntryMap) (es : List IndexEntry) : EntryMap :=
  es.foldl (fun m e => m.insertIfNew e.key e) m

/-- The map without the entries that have a location in a file. -/
def eraseFile (m : EntryMap) (file : String) : EntryMap :=
  m.filter fun _ e => !e.symbol.locations.any (·.filePath == file)

/-- The entries whose name is a given one but for case. -/
def named (m : EntryMap) (name : String) : List IndexEntry :=
  m.entries.filter fun e => Text.lower e.symbol.name == Text.lower name

/-- The lower-case names of the entries, each once. -/
def lowerNames (m : EntryMap) : List String :=
  (m.entries.map fun e => Text.lower e.symbol.name).dedup

end EntryMap

/-! ## Commands -/

/-- What changes an index. -/
inductive IndexCommand where
  | add (e : IndexEntry)
  | upsert (e : IndexEntry)
  | invalidate (file : String)
  | addSolution (s : Solution)
  | clear

/-- What a command answers. -/
inductive IndexAnswer where
  | done
  | added (isNew : Bool)
  | counted (n : Nat)
  deriving Repr, DecidableEq

namespace IndexCommand

def onIndex : IndexCommand → SymbolIndex → IndexAnswer × SymbolIndex
  | .add e, x => (.added (x.add e).1, (x.add e).2)
  | .upsert e, x => (.done, x.upsert e)
  | .invalidate file, x => (.counted (x.invalidate file).1, (x.invalidate file).2)
  | .addSolution s, x => (.counted (x.addSolution s).1, (x.addSolution s).2)
  | .clear, x => (.done, x.clear)

def onMap : IndexCommand → EntryMap → IndexAnswer × EntryMap
  | .add e, m => (.added (!m.contains e.key), m.insertIfNew e.key e)
  | .upsert e, m => (.done, m.insert e.key e)
  | .invalidate file, m => (.counted (m.size - (m.eraseFile file).size), m.eraseFile file)
  | .addSolution s, m =>
    let more := m.insertAll (SymbolIndex.entriesOf s)
    (.counted (more.size - m.size), more)
  | .clear, _ => (.done, ∅)

/-- Carries out commands one after the other, and lists their answers. -/
def run {σ : Type} (step : IndexCommand → σ → IndexAnswer × σ) (s : σ) :
    List IndexCommand → List IndexAnswer × σ
  | [] => ([], s)
  | c :: cs =>
    let (answer, next) := step c s
    let (answers, last) := run step next cs
    (answer :: answers, last)

end IndexCommand

/-! ## Refinement -/

/-- The index holds what the map holds. -/
structure SymbolIndex.Refines (x : SymbolIndex) (m : EntryMap) : Prop where
  consistent : x.Consistent
  lookup : ∀ key, x.get? key = m[key]?

namespace SymbolIndex.Refines

variable {x : SymbolIndex} {m : EntryMap}

theorem empty : SymbolIndex.empty.Refines ∅ :=
  ⟨.empty, fun _ => by simp⟩

theorem contains_eq (h : x.Refines m) (key : String) : x.contains key = m.contains key := by
  rw [Std.ExtTreeMap.contains_eq_isSome_getElem?, ← h.lookup]
  rfl

theorem byKey_eq (h : x.Refines m) : x.byKey = m.toList := by
  have hm : Table.Ascending m.toList :=
    Std.ExtTreeMap.ordered_keys_toList.imp fun hlt => compare_lt_iff_lt.mp hlt
  refine h.consistent.ascending.ext hm fun key => ?_
  refine (h.lookup key).trans (Option.ext fun e => ?_)
  rw [← hm.mem_iff, Std.ExtTreeMap.mem_toList_iff_getElem?_eq_some]

theorem snapshot_eq (h : x.Refines m) : x.snapshot = m.entries := by
  rw [snapshot, Table.values, h.byKey_eq, EntryMap.entries]

theorem size_eq (h : x.Refines m) : x.size = m.size := by
  rw [size, h.byKey_eq, Std.ExtTreeMap.length_toList]

theorem isEmpty_eq (h : x.Refines m) : x.isEmpty = m.isEmpty := by
  rw [isEmpty, h.byKey_eq, Std.ExtTreeMap.isEmpty_toList]

/-- What is found by name is what the map holds under it. -/
theorem byNameOf_eq (h : x.Refines m) (name : String) : x.byNameOf name = m.named name := by
  rw [h.consistent.byNameOf_eq, h.snapshot_eq]
  rfl

theorem bucketCount_eq (h : x.Refines m) : x.bucketCount = m.lowerNames.length := by
  rw [h.consistent.bucketCount_eq, h.snapshot_eq]
  rfl

/-! ## One command -/

theorem upsert (h : x.Refines m) (e : IndexEntry) : (x.upsert e).Refines (m.insert e.key e) where
  consistent := h.consistent.upsert e
  lookup := by
    intro key
    rw [get?_upsert, Std.ExtTreeMap.getElem?_insert]
    simp only [Std.compare_eq_iff_eq, h.lookup]

theorem add (h : x.Refines m) (e : IndexEntry) :
    (x.add e).1 = !m.contains e.key ∧ (x.add e).2.Refines (m.insertIfNew e.key e) := by
  refine ⟨by rw [add_fst, h.contains_eq], h.consistent.add e, fun key => ?_⟩
  rw [get?_add, Std.ExtTreeMap.getElem?_insertIfNew]
  simp only [Std.compare_eq_iff_eq, h.lookup]
  by_cases hkey : e.key = key
  · subst hkey
    cases hheld : m[e.key]? with
    | none => simp [Std.ExtTreeMap.mem_iff_isSome_getElem?, hheld]
    | some d => simp [Std.ExtTreeMap.mem_iff_isSome_getElem?, hheld]
  · simp [hkey]

theorem addAll (h : x.Refines m) (es : List IndexEntry) :
    (x.addAll es).2.Refines (m.insertAll es) ∧
      (m.insertAll es).size = m.size + (x.addAll es).1.countP id := by
  induction es generalizing x m with
  | nil => exact ⟨h, rfl⟩
  | cons e es ih =>
    obtain ⟨hflag, hnext⟩ := h.add e
    obtain ⟨hlast, hsize⟩ := ih hnext
    refine ⟨hlast, ?_⟩
    have hcount : (x.addAll (e :: es)).1 = (x.add e).1 :: ((x.add e).2.addAll es).1 := rfl
    have hstep : (m.insertIfNew e.key e).size = m.size + if (x.add e).1 then 1 else 0 := by
      rw [Std.ExtTreeMap.size_insertIfNew, hflag]
      by_cases hheld : e.key ∈ m
      · simp [hheld]
      · simp [hheld]
    calc (m.insertAll (e :: es)).size
        = (m.insertIfNew e.key e).size + ((x.add e).2.addAll es).1.countP id := hsize
      _ = m.size + (x.addAll (e :: es)).1.countP id := by
          rw [hstep, hcount, List.countP_cons]
          simp only [id]
          omega

theorem invalidate (h : x.Refines m) (file : String) :
    (x.invalidate file).1 = m.size - (m.eraseFile file).size ∧
      (x.invalidate file).2.Refines (m.eraseFile file) := by
  have hnext : (x.invalidate file).2.Refines (m.eraseFile file) := by
    refine ⟨h.consistent.invalidate file, fun key => ?_⟩
    rw [h.consistent.get?_invalidate, h.lookup, EntryMap.eraseFile, Std.ExtTreeMap.getElem?_filter']
    rfl
  refine ⟨?_, hnext⟩
  have hkept : (m.eraseFile file).size =
      (m.entries.filter fun e => !e.symbol.isDeclaredIn file).length := by
    rw [← Std.ExtTreeMap.length_toList, EntryMap.eraseFile, Std.ExtTreeMap.toList_filter,
      EntryMap.entries, List.filter_map, List.length_map]
    rfl
  have hall : m.size = m.entries.length := by
    rw [EntryMap.entries, List.length_map, Std.ExtTreeMap.length_toList]
  rw [invalidate_fst, declaredIn, h.snapshot_eq, hkept, hall,
    List.length_eq_length_filter_add (l := m.entries) (fun e => e.symbol.isDeclaredIn file)]
  omega

/-- Every command answers the same on the index and on the map, and keeps them in step. -/
theorem command (h : x.Refines m) (c : IndexCommand) :
    (c.onIndex x).1 = (c.onMap m).1 ∧ (c.onIndex x).2.Refines (c.onMap m).2 := by
  cases c with
  | add e =>
    obtain ⟨hflag, hnext⟩ := h.add e
    exact ⟨congrArg IndexAnswer.added hflag, hnext⟩
  | upsert e => exact ⟨rfl, h.upsert e⟩
  | invalidate file =>
    obtain ⟨hcount, hnext⟩ := h.invalidate file
    exact ⟨congrArg IndexAnswer.counted hcount, hnext⟩
  | addSolution s =>
    obtain ⟨hnext, hsize⟩ := h.addAll (entriesOf s)
    refine ⟨congrArg IndexAnswer.counted ?_, hnext⟩
    rw [hsize, Nat.add_sub_cancel_left]
    rfl
  | clear => exact ⟨rfl, .empty⟩

theorem run (h : x.Refines m) (cs : List IndexCommand) :
    (IndexCommand.run IndexCommand.onIndex x cs).1 = (IndexCommand.run IndexCommand.onMap m cs).1 ∧
      (IndexCommand.run IndexCommand.onIndex x cs).2.Refines
        (IndexCommand.run IndexCommand.onMap m cs).2 := by
  induction cs generalizing x m with
  | nil => exact ⟨rfl, h⟩
  | cons c cs ih =>
    obtain ⟨hanswer, hnext⟩ := h.command c
    obtain ⟨hanswers, hlast⟩ := ih hnext
    exact ⟨congrArg₂ List.cons hanswer hanswers, hlast⟩

end SymbolIndex.Refines

/-- Beside a plain finite map, a symbol index gives the same answers to every run of commands, and
after it the same look-ups: by key, by name, of all entries, and of how many there are. -/
theorem SymbolIndex.run_agrees_with_map (commands : List IndexCommand) :
    let (answers, x) := IndexCommand.run IndexCommand.onIndex SymbolIndex.empty commands
    let (expected, m) := IndexCommand.run IndexCommand.onMap ∅ commands
    answers = expected ∧
      (∀ key, x.get? key = m[key]? ∧ x.contains key = m.contains key) ∧
      x.size = m.size ∧ x.isEmpty = m.isEmpty ∧
      x.snapshot = m.entries ∧ x.snapshot.Pairwise (fun d e => d.key < e.key) ∧
      (∀ name, x.byNameOf name = m.named name) ∧
      x.bucketCount = m.lowerNames.length := by
  obtain ⟨hanswers, h⟩ := Refines.empty.run commands
  exact ⟨hanswers, fun key => ⟨h.lookup key, h.contains_eq key⟩, h.size_eq, h.isEmpty_eq,
    h.snapshot_eq, h.consistent.snapshot_ascending, h.byNameOf_eq, h.bucketCount_eq⟩

end SolutionAtlas
