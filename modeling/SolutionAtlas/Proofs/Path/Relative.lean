-- SUMMARY: Paths as seen from a root, and the way back from them.
import Mathlib
import SolutionAtlas.Proofs.Path

/-!
# Paths seen from a root

A path is shown as seen from a root, and what a user writes is read as seen from it. The way back
leads to where it came from exactly when the path lies below the root and its names can be written by
themselves. A path elsewhere is shown with `..` in front, which the way back does not take off again.
-/

namespace SolutionAtlas

/-! ## Texts that lose nothing -/

namespace Text

theorem trimChars_infix (s : List Char) : trimChars s <:+: s := by
  have hend : trimChars s <+: trimStartChars s := by
    apply List.reverse_suffix.mp
    simpa [trimChars, trimEndChars] using List.dropWhile_suffix isBlank
  exact hend.isInfix.trans (List.dropWhile_suffix _).isInfix

/-- Only what stands behind the last character that is no blank is taken off at the end. -/
theorem trimEndChars_append {c : Char} (hc : isBlank c = false) (front back : List Char) :
    trimEndChars (front ++ c :: back) = front ++ c :: trimEndChars back := by
  simp only [trimEndChars, List.reverse_append, List.reverse_cons, List.append_assoc]
  rw [List.dropWhile_append]
  split <;> simp_all

theorem toList_trim (s : String) : (trim s).toList = trimChars s.toList := by
  simp [trim]

@[simp] theorem toList_forwardSlashes (s : String) :
    (forwardSlashes s).toList = s.toList.map fun c => if c == '\\' then '/' else c := by
  simp [forwardSlashes, replaceChar]

theorem not_mem_forwardSlashes (s : String) : '\\' ∉ (forwardSlashes s).toList := by
  intro h
  obtain ⟨c, -, hc⟩ := List.mem_map.mp (toList_forwardSlashes s ▸ h)
  split at hc <;> simp_all

theorem forwardSlashes_eq_self {s : String} (h : '\\' ∉ s.toList) : forwardSlashes s = s := by
  have hkept : ∀ c ∈ s.toList, (if c == '\\' then '/' else c) = id c := by
    intro c hc
    have hne : c ≠ '\\' := fun heq => h (heq ▸ hc)
    simp [hne]
  apply String.toList_inj.mp
  rw [toList_forwardSlashes, List.map_congr_left hkept, List.map_id]

end Text

namespace Path

variable {R P Q : Place}

theorem dropCurrent_suffix (s : List Char) : dropCurrent s <:+ s := by
  fun_induction dropCurrent s with
  | case1 s ih => exact ih.trans ((List.suffix_cons _ _).trans (List.suffix_cons _ _))
  | case2 s => exact List.suffix_rfl

/-! ## Common beginnings -/

theorem commonLength_comm (as bs : List Component) : commonLength as bs = commonLength bs as := by
  fun_induction commonLength as bs with
  | case1 a as bs ih => simp [commonLength, ih]
  | case2 a as b bs hne => simp [commonLength, Ne.symm hne]
  | case3 as bs h =>
    cases as with
    | nil => simp [commonLength]
    | cons a as =>
      cases bs with
      | nil => simp [commonLength]
      | cons b bs => exact absurd rfl (h a as b bs rfl)

theorem commonLength_append (as bs : List Component) : commonLength as (as ++ bs) = as.length := by
  induction as with
  | nil => simp [commonLength]
  | cons a as ih => simp [commonLength, ih]

theorem commonLength_lt {as bs : List Component} (h : ¬as <+: bs) : commonLength as bs < as.length := by
  induction as generalizing bs with
  | nil => exact absurd List.nil_prefix h
  | cons a as ih =>
    cases bs with
    | nil => simp [commonLength]
    | cons b bs =>
      rw [List.cons_prefix_cons, not_and] at h
      by_cases hab : a = b
      · simpa [commonLength, hab] using ih (h hab)
      · simp [commonLength, hab]

/-! ## Down from a root -/

theorem dropComponents_named (hP : P.Named) (n : Nat) : dropComponents n P = P.drop n := by
  induction P generalizing n with
  | nil => cases n <;> rfl
  | cons s P ih =>
    have hs : isFiller s = false := (hP s List.mem_cons_self).not_filler
    cases n with
    | zero => simp [dropComponents, hs]
    | succ n => simpa [dropComponents, hs] using ih (hP.mono (List.subset_cons_self s P)) n

theorem dropComponents_path (hP : P.Named) (n : Nat) : dropComponents n ("" :: P) = P.drop n := by
  have hfiller : isFiller "" = true := rfl
  cases n with
  | zero =>
    have h := dropComponents_named hP 0
    simpa [dropComponents, hfiller] using h
  | succ n => simpa [dropComponents, hfiller] using dropComponents_named hP (n + 1)

theorem dropFillersAtEnd_path (hP : P.Named) (hne : P ≠ []) :
    dropFillersAtEnd ("" :: P) = "" :: P := by
  obtain ⟨front, s, rfl⟩ := List.eq_nil_or_concat P |>.resolve_left hne
  have hs : isFiller s = false := (hP s (by simp)).not_filler
  simp [dropFillersAtEnd, List.concat_eq_append, hs]

theorem strip?_path (hR : R.Named) (hQ : Q.Named) :
    strip? R.path (Place.path (R ++ Q)) = some ("/".intercalate Q) := by
  have hcomponents : components (Place.path (R ++ Q)) = components R.path ++ Q.map .name := by
    simp [components_path (hR.append hQ), components_path hR]
  have hsegments : dropComponents R.length (dropFillersAtEnd (Text.split '/' (Place.path (R ++ Q)))) =
      Q := by
    rcases eq_or_ne (R ++ Q) [] with hnil | hne
    · obtain ⟨rfl, rfl⟩ := List.append_eq_nil_iff.mp hnil
      decide +kernel
    · rw [split_path (hR.append hQ) hne, dropFillersAtEnd_path (hR.append hQ) hne,
        dropComponents_path (hR.append hQ), List.drop_left]
  rw [strip?, hcomponents, commonLength_append, components_path hR]
  simp [hsegments, ofSegments]

theorem isEmpty_path (P : Place) : (Place.path P).isEmpty = false := by
  have h : (Place.path P).toList ≠ [] := by simp [Place.path]
  simpa using h

/-- A place below a root is shown by the names that lead down to it. -/
theorem relativeTo_below (hR : R.Named) (hQ : Q.Named) :
    relativeTo R.path (Place.path (R ++ Q)) = Text.forwardSlashes ("/".intercalate Q) := by
  simp [relativeTo, isEmpty_path, strip?_path hR hQ]

theorem strip?_eq_none {root path : String} (h : ¬components root <+: components path) :
    strip? root path = none := by
  simp [strip?, commonLength_lt h]

/-! ## Joining -/

/-- What is joined to a place stands behind a slash. -/
theorem exists_join_eq (hR : R.Named) :
    ∃ front, ∀ more, isAbsolute more = false → join R.path more = front ++ "/" ++ more := by
  rcases eq_or_ne R [] with rfl | hne
  · refine ⟨"", fun more hmore => ?_⟩
    have hslash : Text.endsWith "/" "/" = true := by decide
    simp [join, hmore, hslash, Place.path]
  · refine ⟨R.path, fun more hmore => ?_⟩
    simp [join, hmore, isEmpty_path, not_endsWith_path hR hne]

/-! ## Up from a root -/

/-- The path begins with a step up. -/
def Ascends (path : String) : Prop :=
  path = ".." ∨ ∃ rest, path.toList = '.' :: '.' :: '/' :: rest

namespace Ascends

variable {path more : String}

theorem exists_rest (h : Ascends path) : ∃ rest, path.toList = '.' :: '.' :: rest := by
  obtain rfl | ⟨rest, hrest⟩ := h
  · exact ⟨[], rfl⟩
  · exact ⟨'/' :: rest, hrest⟩

theorem not_isAbsolute (h : Ascends path) : isAbsolute path = false := by
  obtain ⟨rest, hrest⟩ := h.exists_rest
  rw [Bool.eq_false_iff]
  intro habs
  obtain ⟨rest', hrest'⟩ := Text.startsWith_slash.mp habs
  simp [hrest] at hrest'

theorem join (h : Ascends path) (hmore : isAbsolute more = false) : Ascends (join path more) := by
  right
  obtain rfl | ⟨rest, hrest⟩ := h
  · have hslash : Text.endsWith ".." "/" = false := by decide
    exact ⟨more.toList, by simp [Path.join, hmore, hslash]⟩
  · have hfilled : path.isEmpty = false := by
      rw [Bool.eq_false_iff, Ne, String.isEmpty_iff]
      rintro rfl
      cases hrest
    cases hends : Text.endsWith path "/" with
    | true => exact ⟨rest ++ more.toList, by simp [Path.join, hmore, hends, hrest]⟩
    | false => exact ⟨rest ++ '/' :: more.toList, by simp [Path.join, hmore, hends, hfilled, hrest]⟩

theorem ofComponents {cs : List Component} (hcs : ∀ c ∈ cs, isAbsolute c.text = false) :
    Ascends (ofComponents (.parent :: cs)) := by
  suffices ∀ start, Ascends start → Ascends (cs.foldl (fun acc c => Path.join acc c.text) start) from
    this _ (.inl (by decide))
  intro start hstart
  induction cs generalizing start with
  | nil => exact hstart
  | cons c cs ih =>
    refine ih (fun c' hc' => hcs c' (List.mem_cons_of_mem c hc')) _ ?_
    exact hstart.join (hcs c List.mem_cons_self)

theorem forwardSlashes (h : Ascends path) : Ascends (Text.forwardSlashes path) := by
  obtain rfl | ⟨rest, hrest⟩ := h
  · exact .inl (by decide)
  · exact .inr ⟨_, by simp only [Text.toList_forwardSlashes, hrest, List.map_cons]; rfl⟩

/-- The blanks at the end of a path stand behind the step up. -/
theorem trim (h : Ascends path) : Ascends (Text.trim path) := by
  obtain rfl | ⟨rest, hrest⟩ := h
  · exact .inl (by decide)
  · right
    have hdot : Text.isBlank '.' = false := by decide
    have hslash : Text.isBlank '/' = false := by decide
    have hkept := Text.trimEndChars_append hslash ['.', '.'] rest
    exact ⟨_, by simpa [Text.toList_trim, hrest, Text.trimChars, Text.trimStartChars, hdot] using hkept⟩

theorem dropCurrent (h : Ascends path) : String.ofList (dropCurrent path.toList) = path := by
  obtain ⟨rest, hrest⟩ := h.exists_rest
  have hkept : Path.dropCurrent path.toList = path.toList := by
    rw [hrest]
    rfl
  rw [hkept, String.ofList_toList]

theorem mem_split (h : Ascends path) : ".." ∈ Text.split '/' path := by
  obtain rfl | ⟨rest, hrest⟩ := h
  · decide
  · have hpath : path = ".." ++ "/" ++ String.ofList rest :=
      String.toList_inj.mp (by simp [hrest])
    have hstep : Text.split '/' ".." = [".."] := by decide
    rw [hpath, Text.split_append, hstep]
    exact List.mem_cons_self

end Ascends

theorem not_isAbsolute_of_isName {s : String} (h : IsName s) : isAbsolute s = false := by
  have hnamed : Place.Named [s] := by simpa [Place.Named] using h
  simpa using not_isAbsolute_intercalate hnamed (List.cons_ne_nil s [])

theorem ascends_difference (hR : R.Named) (hP : P.Named)
    (h : ¬components R.path <+: components P.path) : Ascends (difference P.path R.path) := by
  have hlt := commonLength_lt h
  rw [commonLength_comm, components_path hR, components_path hP] at hlt
  rw [difference, components_path hR, components_path hP]
  obtain ⟨up, hup⟩ := Nat.exists_eq_add_of_lt hlt
  have hcommon : commonLength (.root :: P.map .name) (.root :: R.map .name) =
      commonLength (P.map .name) (R.map .name) + 1 := by simp [commonLength]
  rw [hup, hcommon]
  simp only [List.drop_succ_cons]
  rw [show ∀ n, n + up + 1 - n = up + 1 by omega, List.replicate_succ, List.cons_append]
  refine .ofComponents fun c hc => ?_
  rcases List.mem_append.mp hc with hparent | hname
  · obtain rfl := List.eq_of_mem_replicate hparent
    decide
  · obtain ⟨s, hs, rfl⟩ := List.mem_map.mp (List.mem_of_mem_drop hname)
    exact not_isAbsolute_of_isName (hP s hs)

theorem ascends_relativeTo (hR : R.Named) (hP : P.Named)
    (h : ¬components R.path <+: components P.path) : Ascends (relativeTo R.path P.path) := by
  simpa [relativeTo, isEmpty_path, strip?_eq_none h] using (ascends_difference hR hP h).forwardSlashes

/-! ## There and back -/

/-- The path lies elsewhere than in the root. -/
def Outside (root path : String) : Prop :=
  ¬components root <+: components path

/-- The path lies below the root, and the names that lead down to it can be written by themselves: no
backslash is among them, and no blank at either end. -/
def Retraceable (root path : String) : Prop :=
  ∃ names ≠ [], components path = components root ++ names.map .name ∧
    '\\' ∉ ("/".intercalate names).toList ∧
      Text.trim ("/".intercalate names) = "/".intercalate names

/-- What is shown of a path names it, when it is given back. -/
def LeadsBack (root path : String) : Prop :=
  ∃ wanted, Text.nonBlank? (relativeTo root path) = some wanted ∧ resolveUnder root wanted = path

theorem nonBlank?_eq_some {raw : String} (h : Text.trim raw ≠ "") :
    Text.nonBlank? raw = some (Text.trim raw) := by
  simp [Text.nonBlank?, h]

theorem eq_trim_of_nonBlank? {raw wanted : String} (h : Text.nonBlank? raw = some wanted) :
    wanted = Text.trim raw := by
  by_cases hblank : Text.trim raw = ""
  · simp [Text.nonBlank?, hblank] at h
  · rw [nonBlank?_eq_some hblank] at h
    exact (Option.some.inj h).symm

theorem backslash_not_mem_relativeTo (root path : String) : '\\' ∉ (relativeTo root path).toList := by
  unfold relativeTo
  split
  · simp
  · exact Text.not_mem_forwardSlashes _

theorem backslash_not_mem_trim {s : String} (h : '\\' ∉ s.toList) : '\\' ∉ (Text.trim s).toList := by
  intro hmem
  rw [Text.toList_trim] at hmem
  exact h ((Text.trimChars_infix s.toList).subset hmem)

theorem parent_not_mem_split_path (hP : P.Named) : ".." ∉ Text.split '/' P.path := by
  rcases eq_or_ne P [] with rfl | hne
  · decide
  · simp only [split_path hP hne, List.mem_cons, not_or]
    exact ⟨by decide, fun h => (hP _ h).not_parent rfl⟩

/-- What a text that is no absolute path names, seen from the root. -/
def readBelow (raw : String) : String :=
  String.ofList (dropCurrent (Text.forwardSlashes (Text.trim raw)).toList)

theorem resolveUnder_relative {raw : String} (root : String) (h : isAbsolute (Text.trim raw) = false) :
    resolveUnder root raw = join root (readBelow raw) := by
  simp only [resolveUnder, h, Bool.false_eq_true, if_false, readBelow]

theorem resolveUnder_of_ascends {root path : String} (h : Ascends path) (hslash : '\\' ∉ path.toList) :
    resolveUnder root path = join root (Text.trim path) := by
  have hkept := Text.forwardSlashes_eq_self (backslash_not_mem_trim hslash)
  rw [resolveUnder_relative root h.trim.not_isAbsolute, readBelow, hkept, h.trim.dropCurrent]

/-- What is shown of a path outside the root names no place. -/
theorem resolveUnder_outside (hR : R.Named) (hP : P.Named) (h : Outside R.path P.path) :
    ∃ wanted, Text.nonBlank? (relativeTo R.path P.path) = some wanted ∧
      ∀ Q : Place, Q.Named → resolveUnder R.path wanted ≠ Q.path := by
  have hshown := (ascends_relativeTo hR hP h).trim
  have hfilled : Text.trim (relativeTo R.path P.path) ≠ "" := by
    intro hempty
    obtain ⟨rest, hrest⟩ := hshown.exists_rest
    simp [hempty] at hrest
  refine ⟨_, nonBlank?_eq_some hfilled, fun Q hQ heq => parent_not_mem_split_path hQ ?_⟩
  obtain ⟨front, hjoin⟩ := exists_join_eq hR
  rw [← heq, resolveUnder_of_ascends hshown (backslash_not_mem_trim (backslash_not_mem_relativeTo _ _)),
    hjoin _ hshown.trim.not_isAbsolute, Text.split_append]
  exact List.mem_append_right _ hshown.trim.mem_split

theorem dropCurrent_names (hQ : Q.Named) (hne : Q ≠ []) :
    dropCurrent ("/".intercalate Q).toList = ("/".intercalate Q).toList := by
  generalize hshown : ("/".intercalate Q).toList = shown
  unfold dropCurrent
  split
  · rename_i rest
    have hdot : "/".intercalate Q = "." ++ "/" ++ String.ofList rest :=
      String.toList_inj.mp (by simp [hshown])
    have hsplit := Text.split_intercalate hQ hne
    rw [hdot, Text.split_append] at hsplit
    have hmem : "." ∈ Q := hsplit ▸ List.mem_append_left _ (by decide)
    exact absurd (hQ _ hmem).not_filler (by decide)
  · rfl

/-- Names that can be written by themselves lead back. -/
theorem leadsBack_below (hR : R.Named) (hQ : Q.Named) (hne : Q ≠ [])
    (hslash : '\\' ∉ ("/".intercalate Q).toList)
    (htrim : Text.trim ("/".intercalate Q) = "/".intercalate Q) :
    LeadsBack R.path (Place.path (R ++ Q)) := by
  have hfilled : Text.trim ("/".intercalate Q) ≠ "" := by
    intro hempty
    have hsplit := Text.split_intercalate hQ hne
    rw [← htrim, hempty] at hsplit
    have hmem : "" ∈ Q := hsplit ▸ (by decide : "" ∈ Text.split '/' "")
    exact absurd (hQ _ hmem).not_filler (by decide)
  refine ⟨"/".intercalate Q, ?_, ?_⟩
  · rw [relativeTo_below hR hQ, Text.forwardSlashes_eq_self hslash, nonBlank?_eq_some hfilled, htrim]
  · have hrelative : isAbsolute (Text.trim ("/".intercalate Q)) = false := by
      rw [htrim]
      exact not_isAbsolute_intercalate hQ hne
    rw [resolveUnder_relative R.path hrelative, readBelow, htrim, Text.forwardSlashes_eq_self hslash,
      dropCurrent_names hQ hne, String.ofList_toList]
    exact join_path hR hQ hne

theorem length_trim_le (s : String) : (Text.trim s).length ≤ s.length := by
  simpa [Text.toList_trim, ← String.length_toList] using (Text.trimChars_infix s.toList).length_le

@[simp] theorem length_forwardSlashes (s : String) : (Text.forwardSlashes s).length = s.length := by
  simp [← String.length_toList]

theorem length_readBelow_le (raw : String) : (readBelow raw).length ≤ (Text.trim raw).length := by
  have h := (dropCurrent_suffix (Text.forwardSlashes (Text.trim raw)).toList).length_le
  simpa only [readBelow, String.length_ofList, String.length_toList, length_forwardSlashes] using h

/-- A text that is read without loss had nothing to be taken off. -/
theorem readBelow_eq {raw : String} (h : raw.length ≤ (readBelow raw).length) :
    readBelow raw = Text.forwardSlashes raw := by
  have hread := length_readBelow_le raw
  have htrim := length_trim_le raw
  have hraw : Text.trim raw = raw := by
    apply String.toList_inj.mp
    rw [Text.toList_trim]
    refine (Text.trimChars_infix raw.toList).eq_of_length ?_
    rw [← Text.toList_trim, String.length_toList, String.length_toList]
    omega
  have hsuffix := dropCurrent_suffix (Text.forwardSlashes raw).toList
  have hlen : (dropCurrent (Text.forwardSlashes raw).toList).length =
      (Text.forwardSlashes raw).toList.length := by
    rw [readBelow, hraw, String.length_ofList] at h hread
    rw [String.length_toList, length_forwardSlashes]
    omega
  rw [readBelow, hraw, hsuffix.eq_of_length hlen, String.ofList_toList]

/-- A text that names something at least as far down as it is long was read without loss. -/
theorem eq_of_resolveUnder {root front shown raw : String}
    (hjoin : ∀ more, isAbsolute more = false → join root more = front ++ "/" ++ more)
    (hlen : raw.length ≤ shown.length) (h : resolveUnder root raw = front ++ "/" ++ shown) :
    Text.forwardSlashes raw = shown := by
  -- An absolute text would have to be longer than it is.
  have htrim := length_trim_le raw
  have hread := length_readBelow_le raw
  have hlonger : (front ++ "/" ++ shown).length = front.length + 1 + shown.length := by
    simp only [String.length_append]
    rfl
  have hrelative : isAbsolute (Text.trim raw) = false := by
    rw [Bool.eq_false_iff]
    intro habs
    have hsame : Text.trim raw = front ++ "/" ++ shown := by simpa [resolveUnder, habs] using h
    rw [hsame] at htrim
    omega
  have hjoined := (resolveUnder_relative root hrelative).symm.trans h
  have hread' : isAbsolute (readBelow raw) = false := by
    rw [Bool.eq_false_iff]
    intro habs
    have hsame : readBelow raw = front ++ "/" ++ shown := by simpa [join, habs] using hjoined
    rw [hsame] at hread
    omega
  rw [hjoin _ hread', String.append_right_inj] at hjoined
  rw [← readBelow_eq (by rw [hjoined]; exact hlen), hjoined]

/-- Names that lead back can be written by themselves. -/
theorem of_leadsBack_below (hR : R.Named) (hQ : Q.Named) (h : LeadsBack R.path (Place.path (R ++ Q))) :
    Q ≠ [] ∧ '\\' ∉ ("/".intercalate Q).toList ∧
      Text.trim ("/".intercalate Q) = "/".intercalate Q := by
  obtain ⟨wanted, hwanted, hback⟩ := h
  rw [relativeTo_below hR hQ] at hwanted
  have hne : Q ≠ [] := by
    rintro rfl
    cases hwanted
  obtain ⟨front, hjoin⟩ := exists_join_eq hR
  rw [← join_path hR hQ hne, hjoin _ (not_isAbsolute_intercalate hQ hne)] at hback
  obtain rfl := eq_trim_of_nonBlank? hwanted
  have hsame := eq_of_resolveUnder hjoin (by simpa using length_trim_le (Text.forwardSlashes _)) hback
  have hslash : '\\' ∉ ("/".intercalate Q).toList := hsame ▸ Text.not_mem_forwardSlashes _
  have hplain := Text.forwardSlashes_eq_self (backslash_not_mem_trim hslash)
  rw [Text.forwardSlashes_eq_self hslash, hplain] at hsame
  exact ⟨hne, hslash, hsame⟩

theorem name_injective : Function.Injective Component.name :=
  fun _ _ h => Component.name.inj h

theorem components_prefix_iff (hR : R.Named) (hP : P.Named) :
    components R.path <+: components P.path ↔ R <+: P := by
  rw [components_path hR, components_path hP, List.cons_prefix_cons]
  constructor
  · rintro ⟨-, rest, hrest⟩
    obtain ⟨R', Q, rfl, hnames, -⟩ := List.map_eq_append_iff.mp hrest.symm
    obtain rfl := List.map_injective_iff.mpr name_injective hnames
    exact List.prefix_append R' Q
  · rintro ⟨Q, rfl⟩
    simp

/-- What is shown of a place leads back to it exactly when the place lies below the root and its names
from there can be written by themselves. -/
theorem leadsBack_iff (hR : R.Named) (hP : P.Named) :
    LeadsBack R.path P.path ↔ Retraceable R.path P.path := by
  constructor
  · intro h
    by_cases hinside : components R.path <+: components P.path
    · obtain ⟨Q, rfl⟩ := (components_prefix_iff hR hP).mp hinside
      have hQ : Place.Named Q := hP.mono (List.subset_append_right R Q)
      obtain ⟨hne, hslash, htrim⟩ := of_leadsBack_below hR hQ h
      refine ⟨Q, hne, ?_, hslash, htrim⟩
      simp [components_path hR, components_path hP]
    · obtain ⟨wanted, hwanted, hback⟩ := h
      obtain ⟨wanted', hwanted', hnowhere⟩ := resolveUnder_outside hR hP hinside
      obtain rfl := Option.some.inj (hwanted.symm.trans hwanted')
      exact absurd hback (hnowhere P hP)
  · rintro ⟨names, hne, hcomponents, hslash, htrim⟩
    obtain ⟨Q, rfl⟩ := (components_prefix_iff hR hP).mp ⟨_, hcomponents.symm⟩
    have hQ : Place.Named Q := hP.mono (List.subset_append_right R Q)
    obtain rfl : names = Q := by
      refine List.map_injective_iff.mpr name_injective ?_
      simpa [components_path hR, components_path hP, eq_comm] using hcomponents
    exact leadsBack_below hR hQ hne hslash htrim

end Path

end SolutionAtlas
