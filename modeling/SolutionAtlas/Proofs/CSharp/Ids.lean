-- SUMMARY: In the outline of a document, ids of types are told from ids of members by how they begin.
import Mathlib
import SolutionAtlas.CSharp.Outline

/-!
# Ids in outlines

The id of a type begins with `T:`, and the id of a member never does. So no key stands for a type and
a member at once, whatever a document declares.
-/

namespace SolutionAtlas.CSharp

/-- The id is that of a type. -/
def IsTypeId (id : String) : Prop :=
  ['T', ':'] <+: id.toList

theorem isTypeId_append (path : String) : IsTypeId ("T:" ++ path) :=
  ⟨path.toList, by rw [String.toList_append]; rfl⟩

theorem not_isTypeId_of_head {id : String} {c : Char} {rest : List Char} (hid : id.toList = c :: rest)
    (hc : c ≠ 'T') : ¬IsTypeId id := by
  rintro ⟨tail, htail⟩
  rw [hid] at htail
  exact hc (List.cons.inj htail).1.symm

/-- The type has an id of a type, and none of its members has. -/
structure OutlineType.WellIdentified (t : OutlineType) : Prop where
  isTypeId : IsTypeId t.id
  members : ∀ m ∈ t.members, ¬IsTypeId m.id

def Outline.WellIdentified (o : Outline) : Prop :=
  ∀ n ∈ o.namespaces, ∀ t ∈ n.types, t.WellIdentified

/-! ## Members -/

theorem not_isTypeId_of_idLead {kind : SymbolKind} (h : kind.idLead ≠ "T:") (path : String) :
    ¬IsTypeId (kind.idLead ++ path) := by
  have hhead : ∃ c rest, (kind.idLead ++ path).toList = c :: rest ∧ c ≠ 'T' := by
    rw [String.toList_append]
    cases kind <;> first
      | exact absurd rfl h
      | exact ⟨_, _, rfl, by decide⟩
  obtain ⟨c, rest, hid, hc⟩ := hhead
  exact not_isTypeId_of_head hid hc

/-- The member is of no type's kind, and its id goes on from the path of what it is declared in. -/
structure OutlineMember.IsIn (m : OutlineMember) (path : String) : Prop where
  idLead_ne : m.kind.idLead ≠ "T:"
  id_eq : ∃ rest, m.id = m.kind.idLead ++ path ++ "." ++ rest

theorem OutlineMember.isIn_of_kind {m : OutlineMember} {path : String} (kind : SymbolKind) (rest : String)
    (hlead : kind.idLead ≠ "T:") (hkind : m.kind = kind)
    (hid : m.id = kind.idLead ++ path ++ "." ++ rest) : m.IsIn path := by
  subst hkind
  exact ⟨hlead, rest, hid⟩

theorem OutlineMember.IsIn.not_isTypeId {m : OutlineMember} {path : String} (h : m.IsIn path) :
    ¬IsTypeId m.id := by
  obtain ⟨rest, hid⟩ := h.id_eq
  rw [hid, String.append_assoc, String.append_assoc]
  exact not_isTypeId_of_idLead h.idLead_ne _

theorem MemberSyntax.isIn {syn : MemberSyntax} {container : Container} {doc : Option String}
    {m : OutlineMember} (hm : m ∈ syn.members container doc) : m.IsIn container.idPath := by
  unfold MemberSyntax.members at hm
  cases hshape : syn.shape with
  | method returns name typeParameters parameters body =>
    simp only [hshape, List.mem_singleton] at hm
    subst hm
    exact OutlineMember.isIn_of_kind .method _ (by decide) rfl rfl
  | constructor name parameters body =>
    simp only [hshape, List.mem_singleton] at hm
    subst hm
    exact OutlineMember.isIn_of_kind .constructor _ (by decide) rfl rfl
  | property typeText name body =>
    simp only [hshape, List.mem_singleton] at hm
    subst hm
    exact OutlineMember.isIn_of_kind .property _ (by decide) rfl rfl
  | event typeText name =>
    simp only [hshape, List.mem_singleton] at hm
    subst hm
    exact OutlineMember.isIn_of_kind .event _ (by decide) rfl rfl
  | fields typeText ds =>
    simp only [hshape, List.mem_map] at hm
    obtain ⟨d, -, rfl⟩ := hm
    exact OutlineMember.isIn_of_kind .field _ (by decide) rfl rfl
  | eventFields typeText ds =>
    simp only [hshape, List.mem_map] at hm
    obtain ⟨d, -, rfl⟩ := hm
    exact OutlineMember.isIn_of_kind .event _ (by decide) rfl rfl
  | enumMember name =>
    simp only [hshape, List.mem_singleton] at hm
    subst hm
    exact OutlineMember.isIn_of_kind .enumMember _ (by decide) rfl rfl

theorem ParameterSyntax.isIn (p : ParameterSyntax) (container : Container) :
    (p.property container).IsIn container.idPath :=
  OutlineMember.isIn_of_kind .property p.name (by decide) rfl rfl

theorem isIn_of_mem_bodyMembers {container : Container} {before items : List Item}
    {m : OutlineMember} (hm : m ∈ bodyMembers container before items) : m.IsIn container.idPath := by
  induction items generalizing before with
  | nil => cases hm
  | cons item rest ih =>
    cases item with
    | member syn =>
      rw [bodyMembers] at hm
      rcases List.mem_append.mp hm with hm | hm
      · exact MemberSyntax.isIn hm
      · exact ih hm
    | comment text => exact ih hm
    | nameSpace name body => exact ih hm
    | fileNameSpace name body => exact ih hm
    | type head body => exact ih hm
    | other => exact ih hm

/-- All members of a type go on from its path, those that a record declares by its parameters too. -/
theorem TypeHead.isIn_of_mem_members {head : TypeHead} {container : Container} {outer : Option Container}
    {doc : Option String} {body : List Item} {m : OutlineMember}
    (hm : m ∈ (head.outline container outer doc body).members) : m.IsIn container.idPath := by
  unfold TypeHead.outline at hm
  dsimp only at hm
  rcases List.mem_append.mp hm with hm | hm
  · split at hm
    · obtain ⟨p, -, rfl⟩ := List.mem_map.mp hm
      exact p.isIn container
    · cases hm
  · exact isIn_of_mem_bodyMembers hm

/-! ## Types and namespaces -/

theorem TypeHead.outline_wellIdentified (head : TypeHead) (container : Container)
    (outer : Option Container) (doc : Option String) (body : List Item) :
    (head.outline container outer doc body).WellIdentified where
  isTypeId := isTypeId_append _
  members := fun _ hm => (TypeHead.isIn_of_mem_members hm).not_isTypeId

theorem Outline.addType_wellIdentified {name : String} {t : OutlineType} {ns : List OutlineNamespace}
    (ht : t.WellIdentified) (h : ∀ n ∈ ns, ∀ u ∈ n.types, u.WellIdentified) :
    ∀ n ∈ addType name t ns, ∀ u ∈ n.types, u.WellIdentified := by
  induction ns with
  | nil =>
    intro n hn u hu
    obtain rfl := List.mem_singleton.mp hn
    exact List.mem_singleton.mp hu ▸ ht
  | cons n ns ih =>
    have hns : ∀ n ∈ ns, ∀ u ∈ n.types, u.WellIdentified :=
      fun n' hn' => h n' (List.mem_cons_of_mem _ hn')
    rw [addType]
    split
    · intro n' hn' u hu
      rcases List.mem_cons.mp hn' with rfl | hn'
      · rcases List.mem_append.mp hu with hu | hu
        · exact h n List.mem_cons_self u hu
        · exact List.mem_singleton.mp hu ▸ ht
      · exact hns n' hn' u hu
    · intro n' hn' u hu
      rcases List.mem_cons.mp hn' with rfl | hn'
      · exact h n' List.mem_cons_self u hu
      · exact ih hns n' hn' u hu

mutual

theorem collectType_wellIdentified (space : String) (outer : Option Container) (doc : Option String)
    (head : TypeHead) (body : List Item) {o : Outline} (h : o.WellIdentified) :
    (collectType space outer doc head body o).WellIdentified := by
  rw [collectType]
  exact collectNested_wellIdentified space _ [] body
    (Outline.addType_wellIdentified (head.outline_wellIdentified _ _ _ _) h)
termination_by (sizeOf body, 1)

theorem collectNested_wellIdentified (space : String) (container : Container) (before items : List Item)
    {o : Outline} (h : o.WellIdentified) :
    (collectNested space container before items o).WellIdentified := by
  rw [collectNested.eq_def]
  split
  · exact h
  · rename_i head body rest
    exact collectNested_wellIdentified space container _ rest
      (collectType_wellIdentified space _ _ head body h)
  · rename_i item rest _
    exact collectNested_wellIdentified space container _ rest h
termination_by (sizeOf items, 0)

end

theorem collectItems_wellIdentified (outer current : String) (before items : List Item) {o : Outline}
    (h : o.WellIdentified) : (collectItems outer current before items o).WellIdentified := by
  fun_induction collectItems outer current before items o with
  | case1 => exact h
  | case2 =>
    rename_i ihBody ihRest
    exact ihRest (ihBody h)
  | case3 =>
    rename_i ihBody ihRest
    exact ihRest (ihBody h)
  | case4 =>
    rename_i head body rest ih
    exact ih (collectType_wellIdentified _ _ _ head body h)
  | case5 =>
    rename_i ih
    exact ih h

/-- The ids in the outline of any text tell types from members. -/
theorem Outline.ofSource_wellIdentified (source : String) : (ofSource source).WellIdentified := by
  have hitems : (ofItems (Item.ofSource source)).WellIdentified :=
    collectItems_wellIdentified _ _ _ _ (by intro n hn; cases hn)
  exact hitems

end SolutionAtlas.CSharp
