-- SUMMARY: The projects read from a solution file are those of its project lines, in their order.
import Mathlib
import SolutionAtlas.Manifest.SolutionFile
import SolutionAtlas.Proofs.Path.Relative
import SolutionAtlas.Proofs.Text.Occurrence
import SolutionAtlas.Proofs.Text.Pattern

/-!
# Lines of solution files

A match begins at the start of a line and ends within a project line, so the next one cannot begin before the line is
over. Lines of blanks are the only ones that a match passes before it comes to a project; what it reports is the same
as if it had begun behind them.
-/

namespace SolutionAtlas

/-! ## Markup -/

namespace Markup

open Pattern

variable {β : Type} {k : Cursor Char → Option β} {pl : Cursor Char} {u v : List Char} {s : String} {r : β}

theorem run_exactly (h : pl.rest = s.toList ++ v) (hk : k (pl.past s.toList v) = some r) :
    (exactly s).run k pl = some r := by
  unfold exactly
  generalize s.toList = cs at h hk
  induction cs generalizing pl with
  | nil =>
    rw [List.nil_append] at h
    rwa [← h] at hk
  | cons c cs ih =>
    refine run_seq (run_item h (beq_self_eq_true c) (ih rfl ?_))
    rwa [Cursor.past_past, List.singleton_append]

theorem run_exactly_eq_none (h : ¬s.toList <+: pl.rest) : (exactly s).run k pl = none := by
  unfold exactly
  generalize s.toList = cs at h
  induction cs generalizing pl with
  | nil => exact absurd List.nil_prefix h
  | cons c cs ih =>
    change (Pattern.item (· == c)).run _ pl = none
    rw [run]
    split
    · rfl
    · rename_i x rest hrest
      split
      · rename_i hx
        refine ih fun hlater => h ?_
        rw [hrest, beq_iff_eq.mp hx]
        exact List.cons_prefix_cons.mpr ⟨rfl, hlater⟩
      · rfl

theorem run_blanks (h : pl.rest = u ++ v) (hu : ∀ c ∈ u, Text.isBlank c = true)
    (hv : v.head?.all (!Text.isBlank ·) = true) (hk : k (pl.past u v) = some r) : blanks.run k pl = some r :=
  run_most h hu hv hk

theorem run_oneOrMore {p : Char → Bool} (h : pl.rest = u ++ v) (hne : u ≠ []) (hu : ∀ c ∈ u, p c = true)
    (hv : v.head?.all (!p ·) = true) (hk : k (pl.past u v) = some r) : (oneOrMore p).run k pl = some r := by
  obtain ⟨c, cs, rfl⟩ := List.exists_cons_of_ne_nil hne
  obtain ⟨hc, hcs⟩ := List.forall_mem_cons.mp hu
  refine run_seq (run_item h hc (run_seq (run_most rfl hcs hv ?_)))
  rwa [Cursor.past_past]

/-- A quoted value is reported without its quotes. -/
theorem run_quotedValue (h : pl.rest = '"' :: (u ++ '"' :: v)) (hne : u ≠ []) (hu : '"' ∉ u)
    (hk : k ⟨some '"', v, pl.passed + (u.length + 2), u :: pl.groups⟩ = some r) : quotedValue.run k pl = some r := by
  have hother : ∀ c ∈ u, (c != '"') = true := fun c hc => bne_iff_ne.mpr fun heq => hu (heq ▸ hc)
  refine run_seq (run_exactly (v := u ++ '"' :: v) h ?_)
  refine run_seq (run_group rfl (fun k hk => run_oneOrMore rfl hne hother rfl hk) ?_)
  refine run_seq (run_exactly (v := v) rfl ?_)
  have hpassed : pl.passed + 1 + u.length + 1 = pl.passed + (u.length + 2) := by omega
  rw [← hpassed] at hk
  exact hk

end Markup

namespace SolutionFile

open Pattern Markup

/-! ## Lines -/

/-- What a project line begins with. -/
def opening : String :=
  "Project(\"\x7b"

/-- A line that lists a project. -/
structure ProjectLine where
  indent : String
  /-- The id of the kind of project. -/
  kind : String
  name : String
  path : String
  /-- What is written behind the path. -/
  more : String
  indent_blank : ∀ c ∈ indent.toList, Text.isBlank c = true
  kind_closed : '\x7d' ∉ kind.toList
  name_quoted : name.toList ≠ [] ∧ '"' ∉ name.toList
  path_quoted : path.toList ≠ [] ∧ '"' ∉ path.toList
  one_line : '\n' ∉ indent.toList ++ kind.toList ++ name.toList ++ path.toList ++ more.toList

/-- A line of a solution file. -/
inductive Line where
  | project (p : ProjectLine)
  | other (text : String) (one_line : '\n' ∉ text.toList) (no_project : ¬opening.toList <:+: text.toList)

namespace ProjectLine

variable (p : ProjectLine)

def text : String :=
  p.indent ++ opening ++ p.kind ++ "\x7d\") = \"" ++ p.name ++ "\", \"" ++ p.path ++ "\"" ++ p.more

theorem toList_text :
    p.text.toList = p.indent.toList ++ (opening.toList ++ (p.kind.toList ++ ("\x7d\")".toList ++
      ' ' :: '=' :: ' ' :: '"' :: (p.name.toList ++ '"' :: ',' :: ' ' :: '"' ::
        (p.path.toList ++ '"' :: p.more.toList))))) := by
  simp [text]

end ProjectLine

/-! ## Where matches begin -/

section Matches

variable {before : Option Char} {s lead : List Char}

theorem matchAt?_of_inner (h : before.all (· == '\n') = false) : projectLine.matchAt? before s = none := by
  rw [matchAt?, projectLine]
  exact if_neg (Bool.eq_false_iff.mp h)

/-- No match begins where what follows some blanks is not how project lines open. -/
theorem matchAt?_of_not_opens (h : ¬opening.toList <+: s.dropWhile Text.isBlank) :
    projectLine.matchAt? before s = none := by
  cases hstart : before.all (· == '\n') with
  | false => exact matchAt?_of_inner hstart
  | true =>
    rw [matchAt?, projectLine]
    refine (if_pos hstart).trans (run_most_eq_none fun u v hsplit hu before passed => ?_)
    refine run_exactly_eq_none fun hopens => h ?_
    obtain ⟨rest, hrest⟩ := hopens
    rw [show s = u ++ v from hsplit, List.dropWhile_append_of_pos hu, ← show _ = v from hrest]
    exact ⟨rest, rfl⟩

theorem not_opens_nil : ¬opening.toList <+: ([] : List Char).dropWhile Text.isBlank := fun h =>
  absurd (List.prefix_nil.mp h) (List.cons_ne_nil _ _)

/-- A match may begin on blanks in front of a project line. It reports the path and the name, and ends behind the
path. -/
theorem matchAt?_of_project (p : ProjectLine) (hbefore : before.all (· == '\n') = true)
    (hlead : ∀ c ∈ lead, Text.isBlank c = true) (tail : List Char) :
    ∃ n, projectLine.matchAt? before (lead ++ (p.text.toList ++ tail)) =
      some ⟨some '"', p.more.toList ++ tail, n, [p.path.toList, p.name.toList]⟩ := by
  have hblank : ∀ c ∈ lead ++ p.indent.toList, Text.isBlank c = true :=
    List.forall_mem_append.mpr ⟨hlead, p.indent_blank⟩
  have hkind : ∀ c ∈ p.kind.toList, (c != '\x7d') = true := fun c hc =>
    bne_iff_ne.mpr fun heq => p.kind_closed (heq ▸ hc)
  have hspace : ∀ c ∈ [' '], Text.isBlank c = true := fun c hc => List.mem_singleton.mp hc ▸ by decide
  have htext : lead ++ (p.text.toList ++ tail) = (lead ++ p.indent.toList) ++ (opening.toList ++ (p.kind.toList ++
      ("\x7d\")".toList ++ ' ' :: '=' :: ' ' :: '"' :: (p.name.toList ++ '"' :: ',' :: ' ' :: '"' ::
        (p.path.toList ++ '"' :: (p.more.toList ++ tail)))))) := by
    rw [p.toList_text]
    simp
  rw [htext, matchAt?, projectLine]
  apply Exists.intro
  refine run_seq (run_edge hbefore ?_)
  refine run_seq (run_blanks rfl hblank rfl ?_)
  refine run_seq (run_exactly rfl ?_)
  refine run_seq (run_most rfl hkind rfl ?_)
  refine run_seq (run_exactly rfl ?_)
  refine run_seq (run_blanks (u := [' ']) rfl hspace rfl ?_)
  refine run_seq (run_exactly (v := ' ' :: '"' :: _) rfl ?_)
  refine run_seq (run_blanks (u := [' ']) rfl hspace rfl ?_)
  refine run_seq (run_quotedValue rfl p.name_quoted.1 p.name_quoted.2 ?_)
  refine run_seq (run_blanks (u := []) rfl (by simp) rfl ?_)
  refine run_seq (run_exactly (v := ' ' :: '"' :: _) rfl ?_)
  refine run_seq (run_blanks (u := [' ']) rfl hspace rfl ?_)
  refine run_seq (run_quotedValue rfl p.path_quoted.1 p.path_quoted.2 ?_)
  rfl

end Matches

/-! ## From line to line -/

namespace Line

def text : Line → String
  | project p => p.text
  | other text _ _ => text

/-- What a match on the line reports. -/
def reported? : Line → Option (List (List Char))
  | project p => some [p.path.toList, p.name.toList]
  | other .. => none

/-- Further lines, each behind a line feed. -/
def behind (ls : List Line) : List Char :=
  ls.flatMap fun l => '\n' :: l.text.toList

end Line

section Passing

variable {before : Option Char} {u s : List Char} {ls : List Line}

/-- Within a line, no match begins. -/
theorem findUpTo_inner (hbefore : before.all (· == '\n') = false) (hu : '\n' ∉ u) (limit : Nat) (s : List Char) :
    ∃ before', before'.all (· == '\n') = false ∧
      projectLine.findUpTo limit before (u ++ s) = projectLine.findUpTo limit before' s := by
  induction u generalizing before with
  | nil => exact ⟨before, hbefore, rfl⟩
  | cons c u ih =>
    obtain ⟨hc, hlater⟩ := not_or.mp (mt List.mem_cons.mpr hu)
    have hnext : (some c).all (· == '\n') = false := by simpa using Ne.symm hc
    obtain ⟨before', hbefore', hsame⟩ := ih hnext hlater
    exact ⟨before', hbefore', by rw [List.cons_append, findUpTo_cons (matchAt?_of_inner hbefore), hsame]⟩

/-- Blanks are passed over in front of what does not open a project line. -/
theorem findUpTo_blanks (hu : ∀ c ∈ u, Text.isBlank c = true) (h : ¬opening.toList <+: s.dropWhile Text.isBlank)
    (limit : Nat) (before : Option Char) :
    ∃ before', projectLine.findUpTo limit before (u ++ s) = projectLine.findUpTo limit before' s := by
  induction u generalizing before with
  | nil => exact ⟨before, rfl⟩
  | cons c u ih =>
    obtain ⟨-, hlater⟩ := List.forall_mem_cons.mp hu
    have hnone : projectLine.matchAt? before (c :: (u ++ s)) = none := by
      refine matchAt?_of_not_opens ?_
      rw [← List.cons_append, List.dropWhile_append_of_pos hu]
      exact h
    obtain ⟨before', hsame⟩ := ih hlater (some c)
    exact ⟨before', by rw [List.cons_append, findUpTo_cons hnone, hsame]⟩

/-- What opens a project line stands on one line. -/
theorem opening_prefix_of_append (h : opening.toList <+: u ++ Line.behind ls) : opening.toList <+: u := by
  rcases List.prefix_or_prefix_of_prefix h (List.prefix_append u _) with hshort | ⟨rest, hrest⟩
  · exact hshort
  · rw [← hrest, List.prefix_append_right_inj] at h
    cases rest with
    | nil => rw [← hrest, List.append_nil]
    | cons c rest =>
      cases ls with
      | nil => exact absurd (List.prefix_nil.mp h) (List.cons_ne_nil _ _)
      | cons l ls =>
        obtain ⟨hc, -⟩ := List.cons_prefix_cons.mp h
        have hmem : '\n' ∈ opening.toList := by
          rw [← hrest, hc]
          simp
        exact absurd hmem (by decide)

/-- From the start of a line on, with blanks in front of it or without, each project line is matched once. -/
def ReadsFrom (l : Line) (ls : List Line) : Prop :=
  ∀ (before : Option Char) (lead : List Char) (limit : Nat), before.all (· == '\n') = true →
    (∀ c ∈ lead, Text.isBlank c = true) → (l :: ls).length ≤ limit →
      (projectLine.findUpTo limit before (lead ++ (l.text.toList ++ Line.behind ls))).map (·.groups) =
        (l :: ls).filterMap Line.reported?

/-- Within a line, matches are found from the next line on. -/
theorem groups_findUpTo_inner (hls : ∀ l ls', ls = l :: ls' → ReadsFrom l ls')
    (hbefore : before.all (· == '\n') = false) (hu : '\n' ∉ u) {limit : Nat} (hlimit : ls.length ≤ limit) :
    (projectLine.findUpTo limit before (u ++ Line.behind ls)).map (·.groups) = ls.filterMap Line.reported? := by
  obtain ⟨before', hbefore', hsame⟩ := findUpTo_inner hbefore hu limit (Line.behind ls)
  rw [hsame]
  cases ls with
  | nil =>
    rw [Line.behind, List.flatMap_nil, findUpTo_nil (matchAt?_of_inner hbefore')]
    rfl
  | cons l ls =>
    rw [Line.behind, List.flatMap_cons, List.cons_append, findUpTo_cons (matchAt?_of_inner hbefore')]
    exact hls l ls rfl (some '\n') [] limit rfl (by simp) hlimit

theorem readsFrom_project (p : ProjectLine) (hls : ∀ l ls', ls = l :: ls' → ReadsFrom l ls') :
    ReadsFrom (.project p) ls := by
  intro before lead limit hbefore hlead hlimit
  obtain ⟨limit, rfl⟩ := Nat.exists_eq_add_one_of_ne_zero (Nat.ne_of_gt (Nat.lt_of_lt_of_le (Nat.succ_pos _) hlimit))
  obtain ⟨n, hmatch⟩ := matchAt?_of_project p hbefore hlead (Line.behind ls)
  have hmore : '\n' ∉ p.more.toList := fun h => p.one_line (List.mem_append_right _ h)
  rw [Line.text, findUpTo_of_matchAt? hmatch, List.map_cons,
    groups_findUpTo_inner hls rfl hmore (Nat.le_of_succ_le_succ hlimit)]
  rfl

/-- A line of blanks is passed with the blanks in front of the next one. -/
theorem readsFrom_blank {text : String} {one_line : '\n' ∉ text.toList}
    (no_project : ¬opening.toList <:+: text.toList) (hblank : ∀ c ∈ text.toList, Text.isBlank c = true)
    (hls : ∀ l ls', ls = l :: ls' → ReadsFrom l ls') : ReadsFrom (.other text one_line no_project) ls := by
  intro before lead limit hbefore hlead hlimit
  have hboth : ∀ c ∈ lead ++ text.toList, Text.isBlank c = true := List.forall_mem_append.mpr ⟨hlead, hblank⟩
  rw [List.filterMap_cons_none rfl, Line.text, ← List.append_assoc]
  cases ls with
  | nil =>
    obtain ⟨before', hsame⟩ := findUpTo_blanks hboth not_opens_nil limit before
    rw [Line.behind, List.flatMap_nil, hsame, findUpTo_nil (matchAt?_of_not_opens not_opens_nil)]
    rfl
  | cons l' ls =>
    have hfeed : ∀ c ∈ lead ++ text.toList ++ ['\n'], Text.isBlank c = true :=
      List.forall_mem_append.mpr ⟨hboth, fun c hc => List.mem_singleton.mp hc ▸ by decide⟩
    have hnext := hls l' ls rfl before _ limit hbefore hfeed (Nat.le_of_succ_le hlimit)
    rwa [List.append_assoc, List.singleton_append] at hnext

theorem readsFrom_other {text : String} {one_line : '\n' ∉ text.toList}
    (no_project : ¬opening.toList <:+: text.toList) (hls : ∀ l ls', ls = l :: ls' → ReadsFrom l ls') :
    ReadsFrom (.other text one_line no_project) ls := by
  have hsplit := List.takeWhile_append_dropWhile (p := Text.isBlank) (l := text.toList)
  have hstop := List.head?_dropWhile_not Text.isBlank text.toList
  cases hrest : text.toList.dropWhile Text.isBlank with
  | nil => exact readsFrom_blank no_project (List.dropWhile_eq_nil_iff.mp hrest) hls
  | cons c rest =>
    rw [hrest] at hsplit hstop
    intro before lead limit hbefore hlead hlimit
    have hblank : ∀ c ∈ lead ++ text.toList.takeWhile Text.isBlank, Text.isBlank c = true :=
      List.forall_mem_append.mpr ⟨hlead, fun c hc => List.mem_takeWhile_imp hc⟩
    have hc : Text.isBlank c = false := by simpa using hstop
    have hopens : ¬opening.toList <+: (c :: (rest ++ Line.behind ls)).dropWhile Text.isBlank := by
      rw [List.dropWhile_cons_of_neg (by simp [hc]), ← List.cons_append]
      intro h
      refine no_project ((opening_prefix_of_append h).isInfix.trans ?_)
      rw [← hsplit]
      exact (List.suffix_append _ _).isInfix
    have hline : c ≠ '\n' ∧ '\n' ∉ rest := by
      rw [← hsplit, List.mem_append, not_or, List.mem_cons, not_or] at one_line
      exact ⟨Ne.symm one_line.2.1, one_line.2.2⟩
    have hinner : (some c).all (· == '\n') = false := by simpa using hline.1
    obtain ⟨before', hsame⟩ := findUpTo_blanks hblank hopens limit before
    rw [List.filterMap_cons_none rfl, Line.text, ← hsplit, List.append_assoc, List.cons_append, ← List.append_assoc,
      hsame, findUpTo_cons (matchAt?_of_not_opens hopens)]
    exact groups_findUpTo_inner hls hinner hline.2 (Nat.le_of_succ_le hlimit)

theorem readsFrom (l : Line) (ls : List Line) : ReadsFrom l ls := by
  have hstep (ls : List Line) (hls : ∀ l ls', ls = l :: ls' → ReadsFrom l ls') (l : Line) : ReadsFrom l ls := by
    cases l with
    | project p => exact readsFrom_project p hls
    | other text one_line no_project => exact readsFrom_other no_project hls
  induction ls generalizing l with
  | nil => exact hstep [] (fun _ _ h => nomatch h) l
  | cons l' ls ih =>
    refine hstep (l' :: ls) (fun l ls h => ?_) l
    obtain ⟨rfl, rfl⟩ := List.cons.inj h
    exact ih l'

end Passing

/-! ## Entries -/

/-- The text of a solution file with some lines. -/
def text (lines : List Line) : String :=
  "\n".intercalate (lines.map Line.text)

/-- The entry of a project line, unless it is no manifest of a C# project that it names. -/
def ProjectLine.entry? (p : ProjectLine) (directory : String) : Option ProjectEntry :=
  if ".csproj".toList <:+ p.path.toList.map Char.toLower then
    some ⟨p.name, Path.normalize (Path.join directory (Text.forwardSlashes p.path))⟩
  else none

def Line.entry? (directory : String) : Line → Option ProjectEntry
  | project p => p.entry? directory
  | other .. => none

theorem toList_text_cons (l : Line) (ls : List Line) : (text (l :: ls)).toList = l.text.toList ++ Line.behind ls := by
  rw [text, String.toList_intercalate, List.map_map]
  induction ls generalizing l with
  | nil => simp [Line.behind]
  | cons l' ls ih =>
    rw [List.map_cons, List.map_cons, List.intercalate_cons_cons, ← List.map_cons, ih]
    simp [Line.behind]

theorem length_le_behind (ls : List Line) : ls.length ≤ (Line.behind ls).length := by
  induction ls with
  | nil => exact Nat.le_refl 0
  | cons l ls ih =>
    rw [Line.behind, List.flatMap_cons, List.length_append, List.length_cons, List.length_cons]
    rw [Line.behind] at ih
    omega

/-- What all matches in a file report. -/
theorem groups_findAll (lines : List Line) :
    (projectLine.findAll (text lines).toList).map (·.groups) = lines.filterMap Line.reported? := by
  cases lines with
  | nil =>
    rw [show (text []).toList = [] from rfl, findAll, findUpTo_nil (matchAt?_of_not_opens not_opens_nil)]
    rfl
  | cons l ls =>
    have hlimit : (l :: ls).length ≤ (l.text.toList ++ Line.behind ls).length + 1 := by
      have := length_le_behind ls
      rw [List.length_append, List.length_cons]
      omega
    rw [toList_text_cons, findAll]
    exact readsFrom l ls none [] _ rfl (by simp) hlimit

/-- Whether slashes lean to the left or to the right does not matter for an extension. -/
theorem suffix_lowerAscii_iff (path : String) :
    ".csproj".toList <:+ (Text.lowerAscii (Text.forwardSlashes path)).toList ↔
      ".csproj".toList <:+ path.toList.map Char.toLower := by
  have hlower : (Text.lowerAscii (Text.forwardSlashes path)).toList =
      (path.toList.map Char.toLower).map fun c => if c == '\\' then '/' else c := by
    rw [Text.lowerAscii, String.toList_ofList, Text.toList_forwardSlashes, List.map_map, List.map_map]
    refine List.map_congr_left fun c _ => ?_
    by_cases hc : c = '\\'
    · rw [hc]
      rfl
    · have hother : c.toLower ≠ '\\' := mt (Text.toLower_eq_iff (by decide)).mp hc
      simp [hc, hother]
  have hkept (v : List Char) (h : (v.map fun c => if c == '\\' then '/' else c) = ".csproj".toList) :
      v = ".csproj".toList := by
    have hslash : ∀ c ∈ v, c ≠ '\\' := by
      rintro c hc rfl
      have hmem : '/' ∈ ".csproj".toList := h ▸ List.mem_map_of_mem hc
      exact absurd hmem (by decide)
    rw [← h]
    exact (List.map_id v).symm.trans (List.map_congr_left fun c hc => by simp [hslash c hc])
  rw [hlower]
  constructor
  · rintro ⟨front, hfront⟩
    obtain ⟨u, v, huv, -, hv⟩ := List.map_eq_append_iff.mp hfront.symm
    rw [huv, hkept v hv]
    exact List.suffix_append _ _
  · rintro ⟨front, hfront⟩
    rw [← hfront, List.map_append]
    exact List.suffix_append _ _

theorem manifestPath?_eq (directory path : String) :
    manifestPath? directory path =
      if ".csproj".toList <:+ path.toList.map Char.toLower then
        some (Path.normalize (Path.join directory (Text.forwardSlashes path)))
      else none := by
  have hends : Text.endsWith (Text.lowerAscii (Text.forwardSlashes path)) ".csproj" = true ↔
      ".csproj".toList <:+ path.toList.map Char.toLower :=
    Text.endsWith_iff.trans (suffix_lowerAscii_iff path)
  unfold manifestPath?
  simp only [hends]

/-- The projects of a solution file are those of its project lines that name a manifest of a C# project, in the order
of the lines. -/
theorem read_lines (lines : List Line) (directory : String) :
    read (text lines) directory = lines.filterMap (Line.entry? directory) := by
  have hgroups : read (text lines) directory =
      ((projectLine.findAll (text lines).toList).map (·.groups)).filterMap fun gs =>
        (manifestPath? directory (String.ofList (gs.getD 0 []))).map fun path =>
          ⟨String.ofList (gs.getD 1 []), path⟩ := by
    rw [read, List.filterMap_map]
    refine List.filterMap_congr fun m _ => ?_
    rw [groupFromEnd, groupFromEnd, Function.comp_apply]
  rw [hgroups, groups_findAll, List.filterMap_filterMap]
  refine List.filterMap_congr fun l _ => ?_
  cases l with
  | project p =>
    simp only [Line.reported?, Line.entry?, ProjectLine.entry?, Option.bind_some, List.getD_cons_zero,
      List.getD_cons_succ, String.ofList_toList, manifestPath?_eq]
    split <;> rfl
  | other => rfl

example : read " \n\tProject(\"\x7bG\x7d\") = \"A\", \"..\\A.CSPROJ\"\r\nProject(\"\x7bG\x7d\") = \"B\", \"B\"" "/s" =
    [⟨"A", "/A.CSPROJ"⟩] := by
  decide +kernel

end SolutionFile

end SolutionAtlas
