-- SUMMARY: When a file that is asked for by its shown path is the one that is found.
import Mathlib
import SolutionAtlas.Proofs.Path.Relative
import SolutionAtlas.Query.Overview

/-!
# Files by their shown paths

Files are listed by their paths as seen from the root, and a file is asked for by such a path. The
projects are searched in their order, each by absolute paths first and then by the paths of its files as
seen from the project. A file below the root is found unless a project listed before it has a file of
its own with the same relative path. A file outside the root is not found by its path at all.
-/

namespace SolutionAtlas

namespace LoadedSolution

variable {l : LoadedSolution}

/-! ## Search -/

theorem fileOfProject?_eq_none {absolute relative : String} {p : Project} :
    fileOfProject? absolute relative p = none ↔
      ∀ f ∈ p.files, f.filePath ≠ absolute ∧ f.relativePath ≠ relative := by
  simp only [fileOfProject?, Option.or_eq_none_iff, List.find?_eq_none, beq_iff_eq]
  exact ⟨fun h f hf => ⟨h.1 f hf, h.2 f hf⟩, fun h => ⟨fun f hf => (h f hf).1, fun f hf => (h f hf).2⟩⟩

/-- A file is found by its absolute path, or by its relative one when no file has the absolute one. -/
theorem fileOfProject?_eq_some {absolute relative : String} {p : Project} {f : FileEntry}
    (h : fileOfProject? absolute relative p = some f) :
    f ∈ p.files ∧ (f.filePath = absolute ∨
      (∀ g ∈ p.files, g.filePath ≠ absolute) ∧ f.relativePath = relative) := by
  rcases Option.or_eq_some_iff.mp h with habsolute | ⟨hnone, hrelative⟩
  · exact ⟨List.mem_of_find?_eq_some habsolute, .inl (by simpa using List.find?_some habsolute)⟩
  · refine ⟨List.mem_of_find?_eq_some hrelative, .inr ⟨?_, by simpa using List.find?_some hrelative⟩⟩
    simpa using hnone

/-- The file that a project offers for a text that a user gave. -/
def offered? (l : LoadedSolution) (wanted : String) (p : Project) : Option FileEntry :=
  fileOfProject? (Path.resolveUnder l.root wanted) wanted p

/-- The answer is what the first project offers that offers any file. -/
theorem fileMetadata_cases {path wanted : String} (h : Text.nonBlank? path = some wanted)
    (hslash : '\\' ∉ wanted.toList) :
    (∃ m before q after, l.fileMetadata path = .ok m ∧ l.solution.projects = before ++ q :: after ∧
        l.offered? wanted q = some m.file ∧ ∀ p ∈ before, l.offered? wanted p = none) ∨
      (∃ e, l.fileMetadata path = .error e) ∧ ∀ p ∈ l.solution.projects, l.offered? wanted p = none := by
  have hplain := Text.forwardSlashes_eq_self hslash
  simp only [fileMetadata, h, fileNamed, hplain]
  cases hfound : l.solution.projects.findSome? fun p => (l.offered? wanted p).map (p, ·) with
  | none =>
    right
    simp only [offered?] at hfound
    refine ⟨⟨.notFound .file wanted .listFiles, by rw [hfound]⟩, ?_⟩
    simpa [offered?] using hfound
  | some found =>
    left
    obtain ⟨before, q, after, hprojects, hoffered, hnone⟩ := List.findSome?_eq_some_iff.mp hfound
    obtain ⟨f, hf, rfl⟩ := Option.map_eq_some_iff.mp hoffered
    simp only [offered?] at hfound
    refine ⟨_, before, q, after, by rw [hfound], hprojects, hf, ?_⟩
    simpa using hnone

/-! ## Shown paths -/

/-- The projects listed before the first one that has the file. -/
def listedBefore (l : LoadedSolution) (path : String) : List Project :=
  l.solution.projects.takeWhile fun p => p.files.all (·.filePath != path)

/-- A project listed before any that has the file has another one of the same relative path. -/
def Shadowed (l : LoadedSolution) (path : String) : Prop :=
  ∃ q ∈ l.listedBefore path, ∃ g ∈ q.files, g.relativePath = Text.trim (Path.relativeTo l.root path)

/-- The root and all files are places on the disk, each path in plain spelling. -/
structure Placed (l : LoadedSolution) : Prop where
  root : ∃ R : Place, R.Named ∧ l.root = R.path
  files : ∀ p ∈ l.solution.projects, ∀ f ∈ p.files, ∃ P : Place, P.Named ∧ f.filePath = P.path

theorem shown_wanted {root path wanted : String}
    (h : Text.nonBlank? (Path.relativeTo root path) = some wanted) :
    wanted = Text.trim (Path.relativeTo root path) ∧ '\\' ∉ wanted.toList := by
  obtain rfl := Path.eq_trim_of_nonBlank? h
  exact ⟨rfl, Path.backslash_not_mem_trim (Path.backslash_not_mem_relativeTo root path)⟩

section Shown

variable {p : Project} {f : FileEntry}

/-- A file whose shown path leads back to it is the one that is found, unless it is shadowed. -/
theorem fileMetadata_leadsBack (hp : p ∈ l.solution.projects) (hf : f ∈ p.files)
    (h : Path.LeadsBack l.root f.filePath) :
    ∃ m, l.fileMetadata (Path.relativeTo l.root f.filePath) = .ok m ∧
      (m.file.filePath = f.filePath ↔ ¬l.Shadowed f.filePath) := by
  obtain ⟨wanted, hwanted, hback⟩ := h
  obtain ⟨hshown, hslash⟩ := shown_wanted hwanted
  obtain ⟨m, before, q, after, hok, hprojects, hoffered, hnone⟩ | ⟨-, hnone⟩ :=
    fileMetadata_cases (l := l) hwanted hslash
  · refine ⟨m, hok, ?_⟩
    have hbefore : ∀ p ∈ before, (p.files.all (·.filePath != f.filePath)) = true := by
      intro p hp
      simp only [List.all_eq_true, bne_iff_ne, ne_eq]
      exact fun g hg => hback ▸ (fileOfProject?_eq_none.mp (hnone p hp) g hg).1
    have hlisted : l.listedBefore f.filePath =
        before ++ (q :: after).takeWhile fun p => p.files.all (·.filePath != f.filePath) := by
      rw [listedBefore, hprojects, List.takeWhile_append_of_pos hbefore]
    -- The first project that offers a file has this one, or it shadows it.
    obtain ⟨hmem, habsolute | ⟨hother, hrelative⟩⟩ := fileOfProject?_eq_some hoffered
    · rw [hback] at habsolute
      refine iff_of_true habsolute ?_
      rintro ⟨q', hq', g, hg, hrelative⟩
      have hstops : (q.files.all (·.filePath != f.filePath)) = false := by
        simpa using ⟨m.file, hmem, habsolute⟩
      rw [hlisted, List.takeWhile_cons, hstops, if_neg Bool.false_ne_true, List.append_nil] at hq'
      exact (fileOfProject?_eq_none.mp (hnone q' hq') g hg).2 (hshown ▸ hrelative)
    · rw [hback] at hother
      refine iff_of_false (hother _ hmem) (not_not_intro ⟨q, ?_, m.file, hmem, hshown ▸ hrelative⟩)
      have hgoes : (q.files.all (·.filePath != f.filePath)) = true := by simpa using hother
      simp [hlisted, hgoes]
  · exact absurd hback.symm (fileOfProject?_eq_none.mp (hnone p hp) f hf).1

/-- Otherwise it is found only by the path that it has in its own project. -/
theorem relativePath_of_not_leadsBack (h : ¬Path.LeadsBack l.root f.filePath) {m : FileMetadata}
    (hok : l.fileMetadata (Path.relativeTo l.root f.filePath) = .ok m)
    (hfile : m.file.filePath = f.filePath) :
    m.file.relativePath = Text.trim (Path.relativeTo l.root f.filePath) := by
  cases hwanted : Text.nonBlank? (Path.relativeTo l.root f.filePath) with
  | none =>
    rw [fileMetadata, hwanted] at hok
    cases hok
  | some wanted =>
    obtain ⟨hshown, hslash⟩ := shown_wanted hwanted
    obtain ⟨m', before, q, after, hok', -, hoffered, -⟩ | ⟨⟨e, herror⟩, -⟩ :=
      fileMetadata_cases (l := l) hwanted hslash
    · obtain rfl := Except.ok.inj (hok.symm.trans hok')
      obtain ⟨-, habsolute | ⟨-, hrelative⟩⟩ := fileOfProject?_eq_some hoffered
      · exact absurd ⟨wanted, hwanted, habsolute.symm.trans hfile⟩ h
      · exact hrelative.trans hshown
    · rw [herror] at hok
      cases hok

/-- Asking for a file outside the root gives only what a path in some project is spelled like. -/
theorem fileMetadata_outside (hl : l.Placed) (hp : p ∈ l.solution.projects) (hf : f ∈ p.files)
    (h : Path.Outside l.root f.filePath) :
    (∃ m, l.fileMetadata (Path.relativeTo l.root f.filePath) = .ok m) ↔
      ∃ q ∈ l.solution.projects, ∃ g ∈ q.files,
        g.relativePath = Text.trim (Path.relativeTo l.root f.filePath) := by
  obtain ⟨R, hR, hroot⟩ := hl.root
  obtain ⟨P, hP, hpath⟩ := hl.files p hp f hf
  obtain ⟨wanted, hwanted, hnowhere⟩ := Path.resolveUnder_outside hR hP (hroot ▸ hpath ▸ h)
  rw [← hroot, ← hpath] at hwanted
  rw [← hroot] at hnowhere
  obtain ⟨hshown, hslash⟩ := shown_wanted hwanted
  have hother : ∀ q ∈ l.solution.projects, ∀ g ∈ q.files, g.filePath ≠ Path.resolveUnder l.root wanted := by
    intro q hq g hg heq
    obtain ⟨Q, hQ, hplace⟩ := hl.files q hq g hg
    exact hnowhere Q hQ (heq.symm.trans hplace)
  rw [← hshown]
  obtain ⟨m, before, q, after, hok, hprojects, hoffered, -⟩ | ⟨⟨e, herror⟩, hnone⟩ :=
    fileMetadata_cases (l := l) hwanted hslash
  · have hq : q ∈ l.solution.projects := by simp [hprojects]
    obtain ⟨hmem, habsolute | ⟨-, hrelative⟩⟩ := fileOfProject?_eq_some hoffered
    · exact absurd habsolute (hother q hq m.file hmem)
    · exact iff_of_true ⟨m, hok⟩ ⟨q, hq, m.file, hmem, hrelative⟩
  · refine iff_of_false ?_ ?_
    · rintro ⟨m, hok⟩
      rw [herror] at hok
      cases hok
    · rintro ⟨q, hq, g, hg, hrelative⟩
      exact (fileOfProject?_eq_none.mp (hnone q hq) g hg).2 hrelative

theorem Placed.leadsBack_iff (hl : l.Placed) (hp : p ∈ l.solution.projects) (hf : f ∈ p.files) :
    Path.LeadsBack l.root f.filePath ↔ Path.Retraceable l.root f.filePath := by
  obtain ⟨R, hR, hroot⟩ := hl.root
  obtain ⟨P, hP, hpath⟩ := hl.files p hp f hf
  rw [hroot, hpath]
  exact Path.leadsBack_iff hR hP

theorem relativeTo_mem_filePaths (hp : p ∈ l.solution.projects) (hf : f ∈ p.files) :
    ∃ paths, l.filePaths none = .ok paths ∧ Path.relativeTo l.root f.filePath ∈ paths := by
  refine ⟨_, rfl, List.mem_map.mpr ⟨f, ?_, rfl⟩⟩
  exact List.mem_flatMap.mpr ⟨p, hp, hf⟩

/-- Every file is listed by its shown path. If that path leads back to the file, asking for it gives an
answer, and it is the file unless the file is shadowed. If it does not, only the path that a file has in
its own project can give the file. For places on the disk the path leads back exactly below the root,
for names that can be written alone; outside the root the only answers are those that a path in a
project gives. -/
theorem found_by_shown_path (hp : p ∈ l.solution.projects) (hf : f ∈ p.files) :
    (∃ paths, l.filePaths none = .ok paths ∧ Path.relativeTo l.root f.filePath ∈ paths) ∧
      (Path.LeadsBack l.root f.filePath →
        ∃ m, l.fileMetadata (Path.relativeTo l.root f.filePath) = .ok m ∧
          (m.file.filePath = f.filePath ↔ ¬l.Shadowed f.filePath)) ∧
      (¬Path.LeadsBack l.root f.filePath →
        ∀ m, l.fileMetadata (Path.relativeTo l.root f.filePath) = .ok m →
          m.file.filePath = f.filePath →
            m.file.relativePath = Text.trim (Path.relativeTo l.root f.filePath)) ∧
      (l.Placed →
        (Path.LeadsBack l.root f.filePath ↔ Path.Retraceable l.root f.filePath) ∧
        (Path.Outside l.root f.filePath →
          ((∃ m, l.fileMetadata (Path.relativeTo l.root f.filePath) = .ok m) ↔
            ∃ q ∈ l.solution.projects, ∃ g ∈ q.files,
              g.relativePath = Text.trim (Path.relativeTo l.root f.filePath)))) := by
  refine ⟨relativeTo_mem_filePaths hp hf, fileMetadata_leadsBack hp hf, ?_, ?_⟩
  · intro h m hok hfile
    exact relativePath_of_not_leadsBack h hok hfile
  · intro hl
    exact ⟨hl.leadsBack_iff hp hf, fileMetadata_outside hl hp hf⟩

end Shown

/-! ## A file that is shadowed and a file outside -/

namespace Example

def file (project path relative : String) : FileEntry :=
  ⟨path, relative, project, "cs", 0, 0, 0, .source⟩

def holding (name manifest path relative : String) : Project where
  name := name
  projectFilePath := manifest
  files := [file manifest path relative]

/-- The first project has a folder that is named as the second one, and the third lies elsewhere. -/
def clashing : LoadedSolution :=
  ofSolution {
    name := "S"
    path := "/ws/App/S.sln"
    projects := [holding "A" "/ws/App/A/A.csproj" "/ws/App/A/B/K.cs" "B/K.cs",
      holding "B" "/ws/App/B/B.csproj" "/ws/App/B/K.cs" "K.cs",
      holding "L" "/ws/Lib/L.csproj" "/ws/Lib/U.cs" "U.cs"] } none

theorem placed_clashing : clashing.Placed where
  root := ⟨["ws", "App"], by decide, by decide +kernel⟩
  files := by
    simp only [clashing, ofSolution, holding, List.forall_mem_cons]
    refine ⟨⟨⟨["ws", "App", "A", "B", "K.cs"], by decide, by decide +kernel⟩, by simp⟩,
      ⟨⟨["ws", "App", "B", "K.cs"], by decide, by decide +kernel⟩, by simp⟩,
      ⟨⟨["ws", "Lib", "U.cs"], by decide, by decide +kernel⟩, by simp⟩, by simp⟩

end Example

/-- Asked for the file of the second project, the first project gives its own; asked for that of the
third, no project gives any. -/
theorem found_by_shown_path_clashing :
    (∃ p ∈ Example.clashing.solution.projects, ∃ f ∈ p.files, f.filePath = "/ws/App/B/K.cs" ∧
      ∃ m, Example.clashing.fileMetadata "B/K.cs" = .ok m ∧ m.file.filePath ≠ f.filePath) ∧
    ∃ p ∈ Example.clashing.solution.projects, ∃ f ∈ p.files, f.filePath = "/ws/Lib/U.cs" ∧
      Path.relativeTo Example.clashing.root f.filePath = "../Lib/U.cs" ∧
      ∀ m, Example.clashing.fileMetadata "../Lib/U.cs" ≠ .ok m := by
  constructor
  · let p := Example.holding "B" "/ws/App/B/B.csproj" "/ws/App/B/K.cs" "K.cs"
    let f := Example.file "/ws/App/B/B.csproj" "/ws/App/B/K.cs" "K.cs"
    have hp : p ∈ Example.clashing.solution.projects := by simp [p, Example.clashing, ofSolution]
    have hf : f ∈ p.files := List.mem_singleton.mpr rfl
    have hshown : Path.relativeTo Example.clashing.root f.filePath = "B/K.cs" := by decide +kernel
    have hback : Path.LeadsBack Example.clashing.root f.filePath :=
      ⟨"B/K.cs", by decide +kernel, by decide +kernel⟩
    have hshadowed : Example.clashing.Shadowed f.filePath := by
      refine ⟨Example.holding "A" "/ws/App/A/A.csproj" "/ws/App/A/B/K.cs" "B/K.cs", ?_,
        Example.file "/ws/App/A/A.csproj" "/ws/App/A/B/K.cs" "B/K.cs", ?_, ?_⟩
      · simp [listedBefore, Example.clashing, ofSolution, Example.holding, Example.file, f]
      · exact List.mem_singleton.mpr rfl
      · rw [hshown]
        decide +kernel
    obtain ⟨-, h, -, -⟩ := found_by_shown_path hp hf
    obtain ⟨m, hok, hright⟩ := h hback
    rw [hshown] at hok
    exact ⟨p, hp, f, hf, rfl, m, hok, fun hsame => hright.mp hsame hshadowed⟩
  · let p := Example.holding "L" "/ws/Lib/L.csproj" "/ws/Lib/U.cs" "U.cs"
    let f := Example.file "/ws/Lib/L.csproj" "/ws/Lib/U.cs" "U.cs"
    have hp : p ∈ Example.clashing.solution.projects := by simp [p, Example.clashing, ofSolution]
    have hf : f ∈ p.files := List.mem_singleton.mpr rfl
    have hshown : Path.relativeTo Example.clashing.root f.filePath = "../Lib/U.cs" := by
      decide +kernel
    have houtside : Path.Outside Example.clashing.root f.filePath := by
      unfold Path.Outside
      decide +kernel
    obtain ⟨-, -, -, h⟩ := found_by_shown_path hp hf
    obtain ⟨-, hanswers⟩ := h Example.placed_clashing
    have hnone := (hanswers houtside).not
    rw [hshown] at hnone
    refine ⟨p, hp, f, hf, rfl, hshown, fun m hok => hnone.mpr ?_ ⟨m, hok⟩⟩
    have htrim : Text.trim "../Lib/U.cs" = "../Lib/U.cs" := by decide +kernel
    simp [Example.clashing, ofSolution, Example.holding, Example.file, htrim]

end LoadedSolution

end SolutionAtlas
