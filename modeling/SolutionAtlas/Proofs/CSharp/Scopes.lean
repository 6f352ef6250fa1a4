-- SUMMARY: An outline has every type declaration of a document once, in the namespace it stands in.
import Mathlib
import SolutionAtlas.Proofs.CSharp.Ids

/-!
# Types in their namespaces

Where a type is declared is read off the tree: the namespaces around it, and the types around it. An
outline has one type for every such place and none besides, grouped by the names of the namespaces,
and ids spell out the place.
-/

namespace SolutionAtlas.CSharp

/-! ## Places of types -/

/-- A type declaration in a document, with what is around it, the outermost first. -/
structure TypeSite where
  /-- The names of the namespaces, as they are written. -/
  spaces : List String
  types : List TypeHead
  head : TypeHead

/-- The full name of a namespace inside others; outside of all it is the global one. -/
def spaceName (spaces : List String) : String :=
  if spaces.isEmpty then globalNamespace else ".".intercalate (spaces.map compact)

/-- The name of a type in ids. -/
def TypeHead.idName (head : TypeHead) : String :=
  head.name ++ aritySuffix head.typeParameters.length

/-- The name of a type in signatures. -/
def TypeHead.shownName (head : TypeHead) : String :=
  head.name ++ genericList head.typeParameters

/-- The path down to a type, with a name for each of the types on the way. -/
def typePath (spaces : List String) (types : List TypeHead) (name : TypeHead → String) : String :=
  ".".intercalate (spaces.map compact ++ types.map name)

namespace TypeSite

/-- The namespace that the type is in. -/
def space (site : TypeSite) : String :=
  spaceName site.spaces

/-- The path of the type in ids. -/
def path (site : TypeSite) : String :=
  typePath site.spaces (site.types ++ [site.head]) TypeHead.idName

end TypeSite

/-- The types among the items of a type's body, and in their bodies. -/
def sitesInType (spaces : List String) (types : List TypeHead) : List Item → List TypeSite
  | [] => []
  | .type head body :: rest =>
    ⟨spaces, types, head⟩ :: sitesInType spaces (types ++ [head]) body ++ sitesInType spaces types rest
  | _ :: rest => sitesInType spaces types rest

/-- The types among items, in the namespaces among them and in the bodies of types. `around` are the
namespaces that the items stand in; `current` are those and the one that an item before them has
declared for all that follows, if any. -/
def sitesAmong (around current : List String) : List Item → List TypeSite
  | [] => []
  | .nameSpace written body :: rest =>
    sitesAmong (current ++ [written]) (current ++ [written]) body ++ sitesAmong around current rest
  | .fileNameSpace written body :: rest =>
    sitesAmong (around ++ [written]) (around ++ [written]) body ++
      sitesAmong around (around ++ [written]) rest
  | .type head body :: rest =>
    ⟨current, [], head⟩ :: sitesInType current [head] body ++ sitesAmong around current rest
  | _ :: rest => sitesAmong around current rest

/-- The type declarations of a document. -/
def typeSites (items : List Item) : List TypeSite :=
  sitesAmong [] [] items

/-- How a namespace is declared, with its name as it is written. -/
structure SpaceDeclaration where
  wholeFile : Bool
  written : String

/-- The namespaces declared among items and inside each other. -/
def spacesAmong : List Item → List SpaceDeclaration
  | [] => []
  | .nameSpace written body :: rest => ⟨false, written⟩ :: spacesAmong body ++ spacesAmong rest
  | .fileNameSpace written body :: rest => ⟨true, written⟩ :: spacesAmong body ++ spacesAmong rest
  | _ :: rest => spacesAmong rest

/-- The namespace has a name, which is not that of the global namespace. -/
def IsSpaceName (written : String) : Prop :=
  compact written ≠ "" ∧ compact written ≠ globalNamespace

/-- Namespaces have names of their own, and are all declared for the rest of the file or all in braces. -/
structure WellScoped (items : List Item) : Prop where
  named : ∀ n ∈ spacesAmong items, IsSpaceName n.written
  unmixed : (∀ n ∈ spacesAmong items, n.wholeFile = true) ∨ ∀ n ∈ spacesAmong items, n.wholeFile = false

/-! ## Names -/

theorem intercalate_concat {names : List String} (hne : names ≠ []) (name : String) :
    ".".intercalate (names ++ [name]) = ".".intercalate names ++ "." ++ name := by
  rw [String.intercalate_append_of_ne_nil hne (List.cons_ne_nil _ _), String.intercalate_singleton]

/-- A joined name with a dot is not that of the global namespace. -/
theorem spaceName_ne {spaces : List String} (h : ∀ written ∈ spaces, IsSpaceName written)
    (hne : spaces ≠ []) : spaceName spaces ≠ "" ∧ spaceName spaces ≠ globalNamespace := by
  cases spaces with
  | nil => exact absurd rfl hne
  | cons first rest =>
    cases rest with
    | nil =>
      have hfirst : spaceName [first] = compact first := by simp [spaceName]
      rw [hfirst]
      exact h first List.mem_cons_self
    | cons second rest =>
      have hdot : '.' ∈ (spaceName (first :: second :: rest)).toList := by
        simp [spaceName, String.toList_append, List.intercalate]
      constructor
      · intro hempty
        rw [hempty] at hdot
        cases hdot
      · intro hglobal
        rw [hglobal] at hdot
        exact absurd hdot (by decide)

theorem namespaceName_eq {spaces : List String} (h : ∀ written ∈ spaces, IsSpaceName written)
    (written : String) : namespaceName (spaceName spaces) written = spaceName (spaces ++ [written]) := by
  rcases eq_or_ne spaces [] with rfl | hne
  · simp [namespaceName, spaceName]
  · obtain ⟨hfilled, hglobal⟩ := spaceName_ne h hne
    have hnone : ¬(spaceName spaces == globalNamespace || (spaceName spaces).isEmpty) = true := by
      simp [hglobal, String.isEmpty_iff, hfilled]
    have hmap : spaces.map compact ≠ [] := by simpa using hne
    rw [namespaceName, if_neg hnone]
    simp only [spaceName, List.isEmpty_iff, hne, if_false, List.append_eq_nil_iff, List.cons_ne_nil,
      and_false, List.map_append, List.map_cons, List.map_nil]
    rw [intercalate_concat hmap]

/-- How the contents of the innermost of some types are named. -/
structure Container.Names (c : Container) (spaces : List String) (types : List TypeHead) : Prop where
  inside : types ≠ []
  idPath_eq : c.idPath = typePath spaces types TypeHead.idName
  displayPath_eq : c.displayPath = typePath spaces types TypeHead.shownName
  namePath_eq : c.namePath = ".".intercalate (types.map TypeHead.name)

/-- The container around a type is that of the innermost of the types around it, if there are any. -/
def Surrounds (outer : Option Container) (spaces : List String) (types : List TypeHead) : Prop :=
  match outer with
  | none => types = []
  | some c => c.Names spaces types

theorem typePath_concat {spaces : List String} {types : List TypeHead} (hne : types ≠ [])
    (name : TypeHead → String) (head : TypeHead) :
    typePath spaces (types ++ [head]) name = typePath spaces types name ++ "." ++ name head := by
  have hfilled : spaces.map compact ++ types.map name ≠ [] := by simp [hne]
  rw [typePath, List.map_append, List.map_singleton, ← List.append_assoc, intercalate_concat hfilled]
  rfl

theorem typePath_singleton {spaces : List String} (h : ∀ written ∈ spaces, IsSpaceName written)
    (name : TypeHead → String) (head : TypeHead) :
    typePath spaces [head] name =
      (if spaceName spaces == globalNamespace then "" else spaceName spaces ++ ".") ++ name head := by
  rcases eq_or_ne spaces [] with rfl | hne
  · simp [typePath, spaceName]
  · have hmap : spaces.map compact ≠ [] := by simpa using hne
    rw [if_neg (by simpa using (spaceName_ne h hne).2), typePath, List.map_singleton,
      intercalate_concat hmap, spaceName, if_neg (by simpa using hne)]

theorem TypeHead.container_names {spaces : List String} {types : List TypeHead}
    {outer : Option Container} (h : ∀ written ∈ spaces, IsSpaceName written)
    (houter : Surrounds outer spaces types) (head : TypeHead) :
    (head.container (spaceName spaces) outer).Names spaces (types ++ [head]) := by
  cases outer with
  | none =>
    obtain rfl : types = [] := houter
    refine ⟨by simp, ?_, ?_, by simp [container]⟩
    · rw [List.nil_append, typePath_singleton h]
      exact String.append_assoc
    · rw [List.nil_append, typePath_singleton h]
      exact String.append_assoc
  | some c =>
    have hc : c.Names spaces types := houter
    have hnames : types.map name ≠ [] := by simpa using hc.inside
    refine ⟨by simp, ?_, ?_, ?_⟩
    · rw [typePath_concat hc.inside, ← hc.idPath_eq]
      exact String.append_assoc
    · rw [typePath_concat hc.inside, ← hc.displayPath_eq]
      exact String.append_assoc
    · rw [List.map_append, List.map_singleton, intercalate_concat hnames, ← hc.namePath_eq]
      rfl

/-! ## Grouping -/

/-- The types of the namespace of a name, none when there is no such namespace. -/
def OutlineNamespace.typesOf (name : String) (namespaces : List OutlineNamespace) : List OutlineType :=
  ((namespaces.find? (·.name == name)).map (·.types)).getD []

namespace Outline

theorem names_addType (name : String) (t : OutlineType) (ns : List OutlineNamespace) :
    (addType name t ns).map (·.name) =
      if name ∈ ns.map (·.name) then ns.map (·.name) else ns.map (·.name) ++ [name] := by
  induction ns with
  | nil => rfl
  | cons n ns ih =>
    rw [addType]
    by_cases hn : n.name = name
    · simp [hn]
    · have hne : ¬(n.name == name) = true := by simpa using hn
      rw [if_neg hne, List.map_cons, ih]
      by_cases hin : name ∈ ns.map (·.name)
      · rw [if_pos hin, List.map_cons, if_pos (List.mem_cons_of_mem _ hin)]
      · rw [if_neg hin, List.map_cons, if_neg (by simpa [Ne.symm hn] using hin), List.cons_append]

theorem typesOf_addType (name : String) (t : OutlineType) (ns : List OutlineNamespace) (other : String) :
    OutlineNamespace.typesOf other (addType name t ns) =
      OutlineNamespace.typesOf other ns ++ if name == other then [t] else [] := by
  induction ns with
  | nil =>
    by_cases hname : name = other
    · simp [addType, OutlineNamespace.typesOf, hname]
    · simp [addType, OutlineNamespace.typesOf, hname]
  | cons n ns ih =>
    simp only [OutlineNamespace.typesOf] at ih ⊢
    rw [addType]
    by_cases hn : n.name = name
    · rw [if_pos (by simpa using hn)]
      by_cases hother : name = other
      · simp [hn, hother]
      · simp [hn, hother]
    · rw [if_neg (by simpa using hn)]
      by_cases hother : n.name = other
      · have hname : ¬name = other := fun h => hn (hother.trans h.symm)
        simp [hother, hname]
      · simpa [List.find?_cons, hother] using ih

end Outline

/-- The type is the one declared at a place: its id spells out the place, and so do the ids of its
members, behind the letter of their kind. -/
structure OutlineType.IsAt (t : OutlineType) (site : TypeSite) : Prop where
  kind_eq : t.kind = site.head.form.kind
  span_eq : t.span = site.head.span
  name_eq : t.name = ".".intercalate ((site.types ++ [site.head]).map TypeHead.name)
  id_eq : t.id = "T:" ++ site.path
  members : ∀ m ∈ t.members, ∃ rest, m.id = m.kind.idLead ++ site.path ++ "." ++ rest

/-- The namespaces have names of their own, and the types of each are those of some places that are in
it, in order. -/
structure Collects (namespaces : List OutlineNamespace) (sites : List TypeSite) : Prop where
  names_nodup : (namespaces.map (·.name)).Nodup
  types_at : ∀ name, List.Forall₂ OutlineType.IsAt (OutlineNamespace.typesOf name namespaces)
    (sites.filter (·.space == name))

theorem Collects.empty : Collects [] [] :=
  ⟨List.nodup_nil, fun _ => .nil⟩

/-- One more type, behind the others of its namespace. -/
theorem Collects.addType {namespaces : List OutlineNamespace} {sites : List TypeSite}
    (h : Collects namespaces sites) {t : OutlineType} {site : TypeSite} (ht : t.IsAt site) :
    Collects (Outline.addType site.space t namespaces) (sites ++ [site]) where
  names_nodup := by
    rw [Outline.names_addType]
    split
    · exact h.names_nodup
    · rename_i hnew
      rw [← List.concat_eq_append]
      exact h.names_nodup.concat hnew
  types_at name := by
    rw [Outline.typesOf_addType, List.filter_append]
    refine List.rel_append (h.types_at name) ?_
    by_cases hname : site.space = name
    · simpa [hname] using ht
    · simp [hname]

theorem TypeHead.outline_isAt {spaces : List String} {types : List TypeHead} {outer : Option Container}
    (h : ∀ written ∈ spaces, IsSpaceName written) (houter : Surrounds outer spaces types)
    (head : TypeHead) (doc : Option String) (body : List Item) :
    (head.outline (head.container (spaceName spaces) outer) outer doc body).IsAt ⟨spaces, types, head⟩ := by
  have hc := head.container_names h houter
  refine ⟨rfl, rfl, hc.namePath_eq, ?_, fun m hm => ?_⟩
  · exact congrArg ("T:" ++ ·) hc.idPath_eq
  · obtain ⟨rest, hid⟩ := (isIn_of_mem_members hm).id_eq
    refine ⟨rest, hid.trans ?_⟩
    rw [hc.idPath_eq]
    rfl

/-! ## Bodies -/

mutual

theorem Collects.collectType {spaces : List String} {types : List TypeHead} {outer : Option Container}
    (hspaces : ∀ written ∈ spaces, IsSpaceName written) (houter : Surrounds outer spaces types)
    (doc : Option String) (head : TypeHead) (body : List Item) {o : Outline} {sites : List TypeSite}
    (h : Collects o.namespaces sites) :
    Collects (collectType (spaceName spaces) outer doc head body o).namespaces
      (sites ++ ⟨spaces, types, head⟩ :: sitesInType spaces (types ++ [head]) body) := by
  rw [CSharp.collectType, List.append_cons]
  exact Collects.collectNested hspaces (head.container_names hspaces houter) [] body
    (h.addType (head.outline_isAt hspaces houter doc body))
termination_by (sizeOf body, 1)

theorem Collects.collectNested {spaces : List String} {types : List TypeHead} {c : Container}
    (hspaces : ∀ written ∈ spaces, IsSpaceName written) (hc : c.Names spaces types)
    (before items : List Item) {o : Outline} {sites : List TypeSite} (h : Collects o.namespaces sites) :
    Collects (collectNested (spaceName spaces) c before items o).namespaces
      (sites ++ sitesInType spaces types items) := by
  rw [collectNested.eq_def]
  split
  · rwa [sitesInType, List.append_nil]
  · rename_i head body rest
    have houter : Surrounds (some c) spaces types := hc
    rw [sitesInType, ← List.append_assoc]
    exact Collects.collectNested hspaces hc _ rest (Collects.collectType hspaces houter _ head body h)
  · rename_i item rest hother
    rw [sitesInType]
    · exact Collects.collectNested hspaces hc _ rest h
    · exact hother
termination_by (sizeOf items, 0)

end

/-! ## Documents -/

/-- Namespaces are all declared one way; in braces, no item before others opens one for them. -/
def Unmixed (around current : List String) (items : List Item) : Prop :=
  (∀ n ∈ spacesAmong items, n.wholeFile = true) ∨
    (current = around ∧ ∀ n ∈ spacesAmong items, n.wholeFile = false)

theorem forall_concat {spaces : List String} (h : ∀ written ∈ spaces, IsSpaceName written)
    {written : String} (hwritten : IsSpaceName written) :
    ∀ w ∈ spaces ++ [written], IsSpaceName w := by
  intro w hw
  rcases List.mem_append.mp hw with hw | hw
  · exact h w hw
  · exact List.mem_singleton.mp hw ▸ hwritten

theorem forall_declared {P : SpaceDeclaration → Prop} {n : SpaceDeclaration}
    {inBody inRest : List SpaceDeclaration} :
    (∀ m ∈ n :: inBody ++ inRest, P m) ↔ P n ∧ (∀ m ∈ inBody, P m) ∧ ∀ m ∈ inRest, P m := by
  rw [List.cons_append, List.forall_mem_cons, List.forall_mem_append]

theorem Collects.collectItems (around current : List String) (before items : List Item)
    (haround : ∀ written ∈ around, IsSpaceName written)
    (hcurrent : ∀ written ∈ current, IsSpaceName written)
    (hnamed : ∀ n ∈ spacesAmong items, IsSpaceName n.written) (hunmixed : Unmixed around current items)
    {o : Outline} {sites : List TypeSite} (h : Collects o.namespaces sites) :
    Collects (collectItems (spaceName around) (spaceName current) before items o).namespaces
      (sites ++ sitesAmong around current items) := by
  fun_induction sitesAmong around current items generalizing before o sites with
  | case1 =>
    rw [CSharp.collectItems, List.append_nil]
    exact h
  | case2 around current written body rest ihBody ihRest =>
    rw [spacesAmong] at hnamed
    obtain ⟨hwritten, hbodyNamed, hrestNamed⟩ := forall_declared.mp hnamed
    have hblocks : current = around ∧ ∀ n ∈ spacesAmong (.nameSpace written body :: rest),
        n.wholeFile = false := by
      refine hunmixed.resolve_left fun hfiles => ?_
      rw [spacesAmong] at hfiles
      cases (forall_declared.mp hfiles).1
    obtain ⟨rfl, hblocks⟩ := hblocks
    rw [spacesAmong] at hblocks
    obtain ⟨-, hbody, hrest⟩ := forall_declared.mp hblocks
    have hinner := forall_concat hcurrent hwritten
    rw [CSharp.collectItems, ← List.append_assoc, namespaceName_eq hcurrent]
    exact ihRest _ haround hcurrent hrestNamed (.inr ⟨rfl, hrest⟩)
      (ihBody [] hinner hinner hbodyNamed (.inr ⟨rfl, hbody⟩) h)
  | case3 around current written body rest ihBody ihRest =>
    rw [spacesAmong] at hnamed
    obtain ⟨hwritten, hbodyNamed, hrestNamed⟩ := forall_declared.mp hnamed
    have hfiles : ∀ n ∈ spacesAmong (.fileNameSpace written body :: rest), n.wholeFile = true := by
      refine hunmixed.resolve_right fun hblocks => ?_
      have hblocks := hblocks.2
      rw [spacesAmong] at hblocks
      cases (forall_declared.mp hblocks).1
    rw [spacesAmong] at hfiles
    obtain ⟨-, hbody, hrest⟩ := forall_declared.mp hfiles
    have hinner := forall_concat haround hwritten
    rw [CSharp.collectItems, ← List.append_assoc, namespaceName_eq haround]
    exact ihRest _ haround hinner hrestNamed (.inl hrest)
      (ihBody [] hinner hinner hbodyNamed (.inl hbody) h)
  | case4 around current head body rest ih =>
    have houter : Surrounds none current [] := rfl
    have hskip : spacesAmong (.type head body :: rest) = spacesAmong rest := by simp [spacesAmong]
    rw [Unmixed, hskip] at hunmixed
    rw [hskip] at hnamed
    rw [CSharp.collectItems, ← List.append_assoc]
    exact ih _ haround hcurrent hnamed hunmixed (h.collectType hcurrent houter _ head body)
  | case5 around current item rest hspace hfile htype ih =>
    rw [CSharp.collectItems]
    · refine ih _ haround hcurrent ?_ ?_ h
      · rwa [spacesAmong] at hnamed
        · exact hspace
        · exact hfile
      · rwa [Unmixed, spacesAmong] at hunmixed
        · exact hspace
        · exact hfile
    · exact hspace
    · exact hfile
    · exact htype

/-- No type declaration is lost, listed twice or put in another namespace: the namespaces of the outline
have names of their own, and each has exactly the types that are declared in it, in order. -/
theorem Outline.ofItems_collects {items : List Item} (h : WellScoped items) :
    ((ofItems items).namespaces.map (·.name)).Nodup ∧
      ∀ name, List.Forall₂ OutlineType.IsAt (OutlineNamespace.typesOf name (ofItems items).namespaces)
        ((typeSites items).filter (·.space == name)) := by
  have hunmixed : Unmixed [] [] items := h.unmixed.imp_right fun hblocks => ⟨rfl, hblocks⟩
  have hstart : Collects ({} : Outline).namespaces [] := .empty
  have hcollects := Collects.collectItems [] [] [] items (by simp) (by simp) h.named hunmixed hstart
  exact ⟨hcollects.names_nodup, hcollects.types_at⟩

namespace Outline.Example

/-- A type declared with a keyword, on a line of its own. -/
def head (form : TypeForm) (line : Nat) (name : String) (typeParameters : List String)
    (parameters : List ParameterSyntax) : TypeHead :=
  ⟨form, [], [], name, typeParameters, parameters, [], ⟨line, 1, line, 9⟩⟩

def outer : TypeHead := head .classForm 3 "Outer" ["T"] []
def inner : TypeHead := head .recordForm 4 "Inner" [] [⟨[], "int", "X", "", ⟨4, 5, 4, 8⟩⟩]
def later : TypeHead := head .classForm 7 "Later" [] []

/-- A namespace in two parts, once in braces inside another and once by its full name. -/
def items : List Item :=
  [.nameSpace "A" [.nameSpace "B" [.comment "// first", .type outer [.type inner []]]],
    .nameSpace "A . B" [.type later []]]

theorem wellScoped : WellScoped items := by
  have hspaces : spacesAmong items = [⟨false, "A"⟩, ⟨false, "B"⟩, ⟨false, "A . B"⟩] := by
    simp [items, spacesAmong]
  constructor
  · rw [hspaces]
    simp only [List.forall_mem_cons, IsSpaceName]
    exact ⟨by decide, by decide, by decide, by simp⟩
  · rw [hspaces]
    exact .inr (by simp)

theorem typeSites_items : (typeSites items).filter (·.space == "A.B") =
    [⟨["A", "B"], [], outer⟩, ⟨["A", "B"], [outer], inner⟩, ⟨["A . B"], [], later⟩] := by
  have hsites : typeSites items =
      [⟨["A", "B"], [], outer⟩, ⟨["A", "B"], [outer], inner⟩, ⟨["A . B"], [], later⟩] := by
    simp [typeSites, items, sitesAmong, sitesInType]
  rw [hsites]
  refine List.filter_eq_self.mpr ?_
  simp only [List.forall_mem_cons]
  exact ⟨by decide, by decide, by decide, by simp⟩

end Outline.Example

/-- Both parts come together, and the parameter of the nested record is named by the whole path. -/
theorem Outline.ofItems_collects_nested :
    WellScoped Example.items ∧ ∃ first second third,
      OutlineNamespace.typesOf "A.B" (ofItems Example.items).namespaces = [first, second, third] ∧
      first.id = "T:A.B.Outer\x601" ∧ second.id = "T:A.B.Outer\x601.Inner" ∧ third.id = "T:A.B.Later" ∧
      ∀ m ∈ second.members, ∃ rest, m.id = m.kind.idLead ++ "A.B.Outer\x601.Inner" ++ "." ++ rest := by
  refine ⟨Example.wellScoped, ?_⟩
  have hspace := (ofItems_collects Example.wellScoped).2 "A.B"
  rw [Example.typeSites_items] at hspace
  obtain ⟨first, _, hfirst, hbehind, htypes⟩ := List.forall₂_cons_right_iff.mp hspace
  obtain ⟨second, _, hsecond, hlast, rfl⟩ := List.forall₂_cons_right_iff.mp hbehind
  obtain ⟨third, _, hthird, hnone, rfl⟩ := List.forall₂_cons_right_iff.mp hlast
  obtain rfl := List.forall₂_nil_right_iff.mp hnone
  have houter : TypeSite.path ⟨["A", "B"], [], Example.outer⟩ = "A.B.Outer\x601" := by decide +kernel
  have hinner : TypeSite.path ⟨["A", "B"], [Example.outer], Example.inner⟩ =
      "A.B.Outer\x601.Inner" := by decide +kernel
  have hlater : TypeSite.path ⟨["A . B"], [], Example.later⟩ = "A.B.Later" := by decide +kernel
  refine ⟨first, second, third, htypes, hfirst.id_eq.trans (by rw [houter]; rfl),
    hsecond.id_eq.trans (by rw [hinner]; rfl), hthird.id_eq.trans (by rw [hlater]; rfl), ?_⟩
  exact hinner ▸ hsecond.members

end SolutionAtlas.CSharp
