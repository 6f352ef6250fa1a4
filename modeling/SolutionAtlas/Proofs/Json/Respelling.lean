-- SUMMARY: JSON forms that are read back, also from objects in another order and with unknown members.
import Mathlib
import SolutionAtlas.Json.Record
import SolutionAtlas.Proofs.Json.Text

/-!
# Forms that are read back

`Lawful` is the class of types whose JSON form is read back. What is read need not be what was written:
the members of objects may have changed places at any level, and objects may hold members whose keys
their type does not know. A record is described by its slots, one for each field; each slot says how its
field is written and what reading it gives. The shape of a record puts its slots in the order of its
constructor. What is written and read by a shape is lawful, by the laws of the slots.
-/

namespace SolutionAtlas.Json

/-! ## Other spellings -/

/-- Which values count as another spelling of a value. -/
abbrev Respelling := Json → Json → Prop

/-- The items of an array are respelled. -/
inductive Respelling.items (R : Respelling) : Respelling where
  | mk {xs ys : List Json} (h : List.Forall₂ R xs ys) : items R (.arr xs) (.arr ys)

/-- The known members of an object are respelled, any members with unknown keys are added, and all of
them come in any order. -/
inductive Respelling.record (known : List (String × Respelling)) : Respelling where
  | mk {members result : List (String × Json)} (respelled unknown : List (String × Json))
      (h : List.Forall₂ (fun m m' => m.1 = m'.1 ∧ ∃ R, (m.1, R) ∈ known ∧ R m.2 m'.2) members respelled)
      (hunknown : ∀ m ∈ unknown, m.1 ∉ known.map (·.1))
      (horder : result.Perm (respelled ++ unknown)) : record known (.obj members) (.obj result)

/-- A function that gives the members of every object without repeated keys another order, at every
level, and changes nothing else. -/
structure Rearranges (g : Json → Json) : Prop where
  null : g .null = .null
  bool : ∀ b, g (.bool b) = .bool b
  int : ∀ n, g (.int n) = .int n
  str : ∀ s, g (.str s) = .str s
  arr : ∀ items, g (.arr items) = .arr (items.map g)
  obj : ∀ members, (members.map (·.1)).Nodup →
    ∃ result, g (.obj members) = .obj result ∧ result.Perm (members.map fun m => (m.1, g m.2))

theorem rearranges_id : Rearranges id where
  null := rfl
  bool _ := rfl
  int _ := rfl
  str _ := rfl
  arr items := by rw [List.map_id]; rfl
  obj members _ := ⟨members, rfl, by simp⟩

/-- Setting the value of a free key adds a member. -/
theorem insert_perm {β : Type} {key : String} {t : Table β} (h : key ∉ t.map (·.1)) (value : β) :
    (t.insert key value).Perm ((key, value) :: t) := by
  induction t with
  | nil => exact .refl _
  | cons e t ih =>
    obtain ⟨k, v⟩ := e
    obtain ⟨hne, hrest⟩ := List.ne_and_not_mem_of_not_mem_cons h
    simp only [Table.insert]
    split
    · exact .refl _
    · exact ((ih hrest).cons _).trans (.swap ..)

theorem foldl_insert_perm {β : Type} {members : List (String × β)} (acc : List (String × β))
    (hkeys : ((acc ++ members).map (·.1)).Nodup) :
    (members.foldl (fun acc m => Table.insert m.1 m.2 acc) acc).Perm (acc ++ members) := by
  induction members generalizing acc with
  | nil => rw [List.append_nil, List.foldl_nil]
  | cons m members ih =>
    have hmiddle : (acc ++ m :: members).Perm ((m :: acc) ++ members) := List.perm_middle
    have hkeys' : (((m :: acc) ++ members).map (·.1)).Nodup := (hmiddle.map _).nodup_iff.mp hkeys
    have hfree : m.1 ∉ acc.map (·.1) := by
      rw [List.map_append, List.map_cons, List.cons_append, List.nodup_cons] at hkeys'
      exact fun hin => hkeys'.1 (List.mem_append_left _ hin)
    have hinsert := insert_perm hfree m.2
    rw [List.foldl_cons]
    refine (ih _ ?_).trans ((hinsert.append_right members).trans hmiddle.symm)
    exact ((hinsert.append_right members).map _).nodup_iff.mpr hkeys'

theorem rearranges_sorted : Rearranges sorted where
  null := rfl
  bool _ := rfl
  int _ := rfl
  str _ := rfl
  arr items := by rw [sorted, sortedItems_eq]
  obj members hkeys := by
    refine ⟨_, rfl, ?_⟩
    rw [sortedMembers_eq]
    refine (foldl_insert_perm [] ?_).trans (.of_eq (List.nil_append _))
    rw [List.nil_append, List.map_map]
    exact hkeys

/-! ## Lawful forms -/

/-- A type whose values can be written as text and are read back from any other spelling. -/
class Lawful (α : Type) [JsonForm α] where
  /-- The numbers of a value are within the widths of their fields. -/
  Fits : α → Prop
  respells : Respelling
  /-- How deep the form nests. -/
  depth : Nat
  plain : ∀ {x : α}, Fits x → Plain depth (toJson x)
  rearranged : ∀ {g : Json → Json}, Rearranges g → ∀ x : α, respells (toJson x) (g (toJson x))
  reads : ∀ {x : α} {j : Json}, Fits x → respells (toJson x) j → JsonForm.ofJson? j = some x
  null_unread : (JsonForm.ofJson? .null : Option α) = none

namespace Lawful

instance : Lawful String where
  Fits _ := True
  respells := Eq
  depth := 0
  plain _ := .str _
  rearranged hg x := (hg.str x).symm
  reads := by
    rintro x _ - rfl
    rfl
  null_unread := rfl

instance : Lawful Bool where
  Fits _ := True
  respells := Eq
  depth := 0
  plain _ := .bool _
  rearranged hg x := (hg.bool x).symm
  reads := by
    rintro x _ - rfl
    rfl
  null_unread := rfl

instance : Lawful Nat where
  Fits n := n ≤ maxWord64
  respells := Eq
  depth := 0
  plain h := .nat h
  rearranged hg x := (hg.int x).symm
  reads := by
    rintro n _ hn rfl
    simp only [toJson, JsonForm.ofJson?, Int.toNat_natCast]
    exact if_pos ⟨Int.natCast_nonneg n, hn⟩
  null_unread := rfl

instance {α : Type} [JsonForm α] [Lawful α] : Lawful (List α) where
  Fits xs := ∀ x ∈ xs, Fits x
  respells := .items (respells α)
  depth := depth α + 1
  plain h := by
    refine .arr fun j hj => ?_
    obtain ⟨x, hx, rfl⟩ := List.mem_map.mp hj
    exact plain (h x hx)
  rearranged hg xs := by
    have harr := hg.arr (xs.map toJson)
    refine harr ▸ .mk ?_
    rw [List.map_map, List.forall₂_map_left_iff, List.forall₂_map_right_iff]
    exact List.forall₂_same.mpr fun x _ => rearranged hg x
  reads := by
    rintro xs _ hfits ⟨h⟩
    simp only [JsonForm.ofJson?]
    rename_i ys
    rw [List.forall₂_map_left_iff] at h
    induction h with
    | nil => rfl
    | cons hx _ ih =>
      rw [List.mapM_cons, reads (hfits _ List.mem_cons_self) hx,
        ih fun x hx => hfits x (List.mem_cons_of_mem _ hx)]
      rfl
  null_unread := rfl

/-- A type whose values are written by their names. -/
@[reducible] def ofName {α : Type} [JsonForm α] (all : List α) (name : α → String)
    (hwrites : ∀ x : α, toJson x = .str (name x))
    (hreads : ∀ j, (JsonForm.ofJson? j : Option α) = named? all name j)
    (hfind : ∀ x, all.find? (fun y => name y == name x) = some x) : Lawful α where
  Fits _ := True
  respells := Eq
  depth := 0
  plain {x} _ := hwrites x ▸ .str _
  rearranged hg x := by rw [hwrites, hg.str]
  reads := by
    rintro x _ - rfl
    rw [hreads, hwrites]
    exact hfind x
  null_unread := hreads .null

end Lawful

/-! ## Slots -/

/-- One field of a record: how it is written, if it is, and what reading it gives. -/
structure Slot (α : Type) where
  key : String
  write : α → Option Json
  Fits : α → Prop
  respells : Respelling
  depth : Nat
  Reads : α → Fields → Prop
  plain : ∀ {x : α} {j : Json}, Fits x → j ∈ write x → Plain depth j
  rearranged : ∀ {g : Json → Json}, Rearranges g → ∀ {x : α} {j : Json}, j ∈ write x → respells j (g j)
  reads : ∀ {x : α} {f : Fields}, Fits x → Option.Rel respells (write x) (f key) → Reads x f

namespace Slot

variable {α β : Type} [JsonForm β] [Lawful β]

/-- The members that the field contributes to an object. -/
def group (s : Slot α) (x : α) : List (String × Json) :=
  ((s.write x).map fun j => (s.key, j)).toList

/-- A field that is always written. Whether it may be missing does not matter then. -/
def ofRequired (key : String) (get : α → β) : Slot α where
  key := key
  write x := some (toJson (get x))
  Fits x := Lawful.Fits (get x)
  respells := Lawful.respells β
  depth := Lawful.depth β
  Reads x f := f.required key = some (get x) ∧ ∀ default, f.orElse key default = some (get x)
  plain h hj := by
    cases hj
    exact Lawful.plain h
  rearranged hg x j hj := by
    cases hj
    exact Lawful.rearranged hg (get x)
  reads {x f} h hrel := by
    cases hf : f key with
    | none =>
      rw [hf] at hrel
      cases hrel
    | some j =>
      rw [hf] at hrel
      have hread : JsonForm.ofJson? j = some (get x) := by
        cases hrel with
        | some hj => exact Lawful.reads h hj
      simp only [Fields.required, Fields.orElse, hf, Option.bind_some, hread, implies_true, and_self]

/-- A number of 32 bits. -/
def ofWord32 (key : String) (get : α → Nat) : Slot α where
  key := key
  write x := some (toJson (get x))
  Fits x := get x ≤ maxWord32
  respells := Lawful.respells Nat
  depth := 0
  Reads x f := f.word32 key = some (get x)
  plain {x} {j} h hj := by
    have hwide : Lawful.Fits (get x) := le_trans h (by decide)
    cases hj
    exact Lawful.plain hwide
  rearranged hg x j hj := by
    cases hj
    exact Lawful.rearranged hg (get x)
  reads {x f} h hrel := by
    have hwide : Lawful.Fits (get x) := le_trans h (by decide)
    have hread := ((ofRequired key get).reads hwide hrel).1
    simp only [Fields.word32, hread, Option.bind_eq_bind, Option.bind_some, if_pos h]

/-- A field that is written when there is a value. -/
def ofSome (key : String) (get : α → Option β) : Slot α where
  key := key
  write x := (get x).map toJson
  Fits x := ∀ y ∈ get x, Lawful.Fits y
  respells := Lawful.respells β
  depth := Lawful.depth β
  Reads x f := f.optional key = some (get x)
  plain h hj := by
    obtain ⟨y, hy, rfl⟩ := Option.mem_map.mp hj
    exact Lawful.plain (h y hy)
  rearranged hg x j hj := by
    obtain ⟨y, hy, rfl⟩ := Option.mem_map.mp hj
    exact Lawful.rearranged hg y
  reads {x f} h hrel := by
    cases hx : get x with
    | none =>
      rw [hx, Option.map_none] at hrel
      cases hf : f key with
      | none => rw [Fields.optional, Fields.orElse, hf]
      | some j =>
        rw [hf] at hrel
        cases hrel
    | some y =>
      rw [hx, Option.map_some] at hrel
      cases hf : f key with
      | none =>
        rw [hf] at hrel
        cases hrel
      | some j =>
        rw [hf] at hrel
        have hread : JsonForm.ofJson? j = some y := by
          cases hrel with
          | some hj => exact Lawful.reads (h y hx) hj
        rw [Fields.optional, Fields.orElse, hf]
        cases j with
        | null =>
          rw [Lawful.null_unread] at hread
          cases hread
        | _ => simp only [JsonForm.ofJson?, hread, Option.map_some]

/-- A list that is written unless it is empty. -/
def ofAny (key : String) (get : α → List β) : Slot α where
  key := key
  write x := if (get x).isEmpty then none else some (toJson (get x))
  Fits x := Lawful.Fits (get x)
  respells := Lawful.respells (List β)
  depth := Lawful.depth (List β)
  Reads x f := f.orElse key [] = some (get x)
  plain h hj := by
    split at hj
    · cases hj
    · cases hj
      exact Lawful.plain h
  rearranged hg x j hj := by
    split at hj
    · cases hj
    · cases hj
      exact Lawful.rearranged hg (get x)
  reads {x f} h hrel := by
    split at hrel
    · rename_i hempty
      cases hf : f key with
      | none => rw [Fields.orElse, hf, List.isEmpty_iff.mp hempty]
      | some j =>
        rw [hf] at hrel
        cases hrel
    · exact ((ofRequired key get).reads h hrel).2 []

/-- A field that always holds the same text. -/
def ofConst (key text : String) : Slot α where
  key := key
  write _ := some (.str text)
  Fits _ := True
  respells := Eq
  depth := 0
  Reads _ f := f key = some (.str text)
  plain _ hj := by
    cases hj
    exact .str text
  rearranged hg _ _ hj := by
    cases hj
    exact (hg.str text).symm
  reads {x f} _ hrel := by
    cases hf : f key with
    | none =>
      rw [hf] at hrel
      cases hrel
    | some j =>
      rw [hf] at hrel
      cases hrel with
      | some hj => rw [← hj]

/-- A field of a part of the record. -/
def via (part : α → β) (s : Slot β) : Slot α where
  key := s.key
  write x := s.write (part x)
  Fits x := s.Fits (part x)
  respells := s.respells
  depth := s.depth
  Reads x f := s.Reads (part x) f
  plain := s.plain
  rearranged hg _ _ hj := s.rearranged hg hj
  reads := s.reads

variable {key : String} {x : α}

theorem group_ofSome (get : α → Option β) : (ofSome key get).group x = memberIfSome key (get x) := by
  simp only [group, ofSome]
  cases get x <;> rfl

theorem group_ofAny (get : α → List β) : (ofAny key get).group x = memberIfAny key (get x) := by
  simp only [group, ofAny, memberIfAny]
  cases (get x).isEmpty <;> rfl

omit [JsonForm β] [Lawful β] in
theorem mem_group {s : Slot α} {m : String × Json} :
    m ∈ s.group x ↔ m.1 = s.key ∧ m.2 ∈ s.write x := by
  obtain ⟨k, j⟩ := m
  simp only [group, Option.mem_toList, Option.map_eq_some_iff, Prod.mk.injEq, Option.mem_def]
  constructor
  · rintro ⟨_, hj, rfl, rfl⟩
    exact ⟨rfl, hj⟩
  · rintro ⟨rfl, hj⟩
    exact ⟨j, hj, rfl, rfl⟩

end Slot

/-! ## Records -/

section Records

variable {α : Type} {slots : List (Slot α)} {x : α}

/-- The members that some slots contribute to an object. -/
def written (slots : List (Slot α)) (x : α) : List (String × Json) :=
  (slots.map (·.group x)).flatten

/-- The keys of some slots, and how their values may be respelled. -/
def known (slots : List (Slot α)) : List (String × Respelling) :=
  slots.map fun s => (s.key, s.respells)

theorem mem_written {m : String × Json} :
    m ∈ written slots x ↔ ∃ s ∈ slots, m.1 = s.key ∧ m.2 ∈ s.write x := by
  simp only [written, List.mem_flatten, List.mem_map, exists_exists_and_eq_and, Slot.mem_group]

theorem nodup_written (hkeys : (slots.map (·.key)).Nodup) : ((written slots x).map (·.1)).Nodup := by
  refine hkeys.sublist ?_
  induction slots with
  | nil => exact .slnil
  | cons s slots ih =>
    rw [written, List.map_cons, List.flatten_cons, List.map_append, List.map_cons]
    have hrest := ih (List.nodup_cons.mp hkeys).2
    unfold Slot.group
    cases s.write x with
    | none => exact hrest.cons _
    | some j => exact hrest.cons_cons _

/-- Slots with the same key are the same. -/
theorem slot_unique (hkeys : (slots.map (·.key)).Nodup) {s t : Slot α} (hs : s ∈ slots) (ht : t ∈ slots)
    (h : s.key = t.key) : s = t :=
  List.inj_on_of_nodup_map hkeys hs ht h

theorem exists_of_mem_left {α β : Type} {R : α → β → Prop} {xs : List α} {ys : List β}
    (h : List.Forall₂ R xs ys) {x : α} (hx : x ∈ xs) : ∃ y ∈ ys, R x y := by
  induction h with
  | nil => cases hx
  | cons hxy _ ih =>
    rcases List.mem_cons.mp hx with rfl | hx
    · exact ⟨_, List.mem_cons_self, hxy⟩
    · obtain ⟨y, hy, hR⟩ := ih hx
      exact ⟨y, List.mem_cons_of_mem _ hy, hR⟩

theorem exists_of_mem_right {α β : Type} {R : α → β → Prop} {xs : List α} {ys : List β}
    (h : List.Forall₂ R xs ys) {y : β} (hy : y ∈ ys) : ∃ x ∈ xs, R x y :=
  exists_of_mem_left h.flip hy

/-- In another spelling of a record, the value of each field is another spelling of what was written, or
it is missing as it was. -/
theorem rel_lookup (hkeys : (slots.map (·.key)).Nodup) {result : List (String × Json)}
    (h : Respelling.record (known slots) (.obj (written slots x)) (.obj result)) {s : Slot α}
    (hs : s ∈ slots) : Option.Rel s.respells (s.write x) (result.lookup s.key) := by
  obtain ⟨respelled, unknown, hpointwise, hunknown, horder⟩ := h
  have hrelated : ∀ m ∈ result, m.1 = s.key → ∃ j ∈ s.write x, s.respells j m.2 := by
    intro m hm hkey
    rcases List.mem_append.mp (horder.mem_iff.mp hm) with hin | hin
    · obtain ⟨m₀, hm₀, hsame, R, hR, hrespelled⟩ := exists_of_mem_right hpointwise hin
      obtain ⟨t, ht, htkey, hj⟩ := mem_written.mp hm₀
      obtain rfl := slot_unique hkeys ht hs (by rw [← htkey, hsame, hkey])
      obtain ⟨u, hu, hpair⟩ := List.mem_map.mp hR
      obtain ⟨hukey, rfl⟩ := Prod.mk.inj hpair
      obtain rfl := slot_unique hkeys hu hs (by rw [hukey, htkey])
      exact ⟨m₀.2, hj, hrespelled⟩
    · refine absurd ?_ (hunknown m hin)
      rw [hkey, known, List.map_map]
      exact List.mem_map_of_mem hs
  have hthere : ∀ j ∈ s.write x, ∃ m ∈ result, m.1 = s.key := by
    intro j hj
    obtain ⟨m, hm, hsame, -⟩ := exists_of_mem_left hpointwise (x := (s.key, j))
      (mem_written.mpr ⟨s, hs, rfl, hj⟩)
    exact ⟨m, horder.mem_iff.mpr (List.mem_append_left _ hm), hsame.symm⟩
  cases hfound : result.lookup s.key with
  | none =>
    cases hwrite : s.write x with
    | none => exact .none
    | some j =>
      obtain ⟨m, hm, hkey⟩ := hthere j hwrite
      have hne := List.lookup_eq_none_iff.mp hfound m hm
      simp [hkey] at hne
  | some j' =>
    obtain ⟨front, back, rfl, -⟩ := List.lookup_eq_some_iff.mp hfound
    obtain ⟨j, hj, hrespelled⟩ := hrelated (s.key, j') (by simp) rfl
    rw [Option.mem_def.mp hj]
    exact .some hrespelled

/-- How deep a record nests whose fields are those of some slots. -/
def depthOf (slots : List (Slot α)) : Nat :=
  (slots.map (·.depth)).foldr max 0 + 1

theorem plain_written (hkeys : (slots.map (·.key)).Nodup) (h : ∀ s ∈ slots, s.Fits x) :
    Plain (depthOf slots) (.obj (written slots x)) := by
  refine .obj (fun m hm => ?_) (nodup_written hkeys)
  obtain ⟨s, hs, -, hj⟩ := mem_written.mp hm
  refine (s.plain (h s hs) hj).mono ?_
  exact List.le_max_of_le' 0 (List.mem_map_of_mem hs) le_rfl

theorem rearranged_written {g : Json → Json} (hg : Rearranges g) (hkeys : (slots.map (·.key)).Nodup) :
    Respelling.record (known slots) (.obj (written slots x)) (g (.obj (written slots x))) := by
  obtain ⟨result, hresult, horder⟩ := hg.obj _ (nodup_written (x := x) hkeys)
  rw [hresult]
  refine .mk ((written slots x).map fun m => (m.1, g m.2)) [] ?_
    (fun _ hm => nomatch hm) (by rwa [List.append_nil])
  rw [List.forall₂_map_right_iff]
  refine List.forall₂_same.mpr fun m hm => ⟨rfl, ?_⟩
  obtain ⟨s, hs, hkey, hj⟩ := mem_written.mp hm
  exact ⟨s.respells, List.mem_map.mpr ⟨s, hs, by rw [hkey]⟩, s.rearranged hg hj⟩

/-- Reading a field of another spelling gives what its slot says. -/
theorem reads_of_record (hkeys : (slots.map (·.key)).Nodup) (hfits : ∀ s ∈ slots, s.Fits x)
    {result : List (String × Json)}
    (h : Respelling.record (known slots) (.obj (written slots x)) (.obj result)) :
    ∀ s ∈ slots, s.Reads x fun key => result.lookup key :=
  fun s hs => s.reads (hfits s hs) (rel_lookup hkeys h hs)

end Records

/-! ## Shapes -/

/-- The slots of the fields that a constructor has still to be given, in its order. `γ` is the type of what it
makes of those before. Fields are written one behind the other, and read one by one. -/
structure Slots (α γ : Type) where
  slots : List (Slot α)
  write : α → List (String × Json)
  read? : γ → Fields → Option α
  /-- Gives the constructor the fields of a record. -/
  rebuild : γ → α → α
  write_eq : ∀ x, write x = written slots x
  read?_eq : ∀ {make : γ} {x : α} {f : Fields},
    (∀ s ∈ slots, s.Reads x f) → read? make f = some (rebuild make x)

/-- A record by its constructor and its fields. -/
structure Shape (α : Type) where
  {γ : Type}
  make : γ
  fields : Slots α γ
  rebuild_eq : ∀ x, fields.rebuild make x = x
  keys_nodup : (fields.slots.map (·.key)).Nodup

namespace Shape

variable {α : Type}

section

variable (r : Shape α)

@[simp] def slots : List (Slot α) := r.fields.slots

def write : α → List (String × Json) := r.fields.write

def read? : Fields → Option α := r.fields.read? r.make

end

variable {r : Shape α} {x : α}

theorem write_eq : r.write x = written r.slots x :=
  r.fields.write_eq x

theorem read?_eq {f : Fields} (h : ∀ s ∈ r.slots, s.Reads x f) : r.read? f = some x :=
  (r.fields.read?_eq h).trans (congrArg some (r.rebuild_eq x))

theorem plain_write (h : ∀ s ∈ r.slots, s.Fits x) : Plain (depthOf r.slots) (.obj (r.write x)) := by
  rw [write_eq]
  exact plain_written r.keys_nodup h

theorem rearranged_write {g : Json → Json} (hg : Rearranges g) :
    Respelling.record (known r.slots) (.obj (r.write x)) (g (.obj (r.write x))) := by
  rw [write_eq]
  exact rearranged_written hg r.keys_nodup

/-- Another spelling of a record is an object, and each field of it is read. -/
theorem reads_of_respelled (hfits : ∀ s ∈ r.slots, s.Fits x) {j : Json}
    (h : Respelling.record (known r.slots) (.obj (r.write x)) j) :
    ∃ members, j = .obj members ∧ ∀ s ∈ r.slots, s.Reads x fun key => members.lookup key := by
  rw [write_eq] at h
  cases j with
  | obj members => exact ⟨members, rfl, reads_of_record r.keys_nodup hfits h⟩
  | _ => cases h

end Shape

namespace Slots

variable {α β γ : Type}

def nil : Slots α α where
  slots := []
  write _ := []
  read? x _ := some x
  rebuild x _ := x
  write_eq _ := rfl
  read?_eq _ := rfl

/-- A field in front of others, by its slot and by how it is written and read. -/
def cons (s : Slot α) (get : α → β) (group : α → List (String × Json)) (readField? : Fields → Option β)
    (hgroup : ∀ x, s.group x = group x) (hreads : ∀ {x f}, s.Reads x f → readField? f = some (get x))
    (rest : Slots α γ) : Slots α (β → γ) where
  slots := s :: rest.slots
  write x := group x ++ rest.write x
  read? make f := (readField? f).bind fun y => rest.read? (make y) f
  rebuild make x := rest.rebuild (make (get x)) x
  write_eq x := by
    rw [rest.write_eq, ← hgroup]
    rfl
  read?_eq {make x f} h := by
    obtain ⟨hfirst, hrest⟩ := List.forall_mem_cons.mp h
    rw [hreads hfirst, Option.bind_some, rest.read?_eq hrest]

section Kinds

variable [JsonForm β] [Lawful β] (key : String)

def required (get : α → β) : Slots α γ → Slots α (β → γ) :=
  cons (.ofRequired key get) get (fun x => member key (get x)) (·.required key) (fun _ => rfl) (·.1)

/-- A field that is always written, and that has another value where it is missing. -/
def orElse (default : β) (get : α → β) : Slots α γ → Slots α (β → γ) :=
  cons (.ofRequired key get) get (fun x => member key (get x)) (·.orElse key default) (fun _ => rfl)
    (·.2 default)

def optional (get : α → Option β) : Slots α γ → Slots α (Option β → γ) :=
  cons (.ofSome key get) get (fun x => memberIfSome key (get x)) (·.optional key)
    (fun _ => Slot.group_ofSome get) id

def listed (get : α → List β) : Slots α γ → Slots α (List β → γ) :=
  cons (.ofAny key get) get (fun x => memberIfAny key (get x)) (·.orElse key [])
    (fun _ => Slot.group_ofAny get) id

omit [JsonForm β] [Lawful β] in
def word32 (get : α → Nat) : Slots α γ → Slots α (Nat → γ) :=
  cons (.ofWord32 key get) get (fun x => member key (get x)) (·.word32 key) (fun _ => rfl) id

end Kinds

/-- A text that says of which kind the record is. It is no field. -/
def tag (key text : String) (rest : Slots α γ) : Slots α γ where
  slots := .ofConst key text :: rest.slots
  write x := (key, .str text) :: rest.write x
  read? := rest.read?
  rebuild := rest.rebuild
  write_eq x := by
    rw [rest.write_eq]
    rfl
  read?_eq h := rest.read?_eq (List.forall_mem_cons.mp h).2

/-- A field that is a record itself, with its members among those of the whole. -/
def part (r : Shape β) (get : α → β) (rest : Slots α γ) : Slots α (β → γ) where
  slots := r.slots.map (.via get) ++ rest.slots
  write x := r.write (get x) ++ rest.write x
  read? make f := (r.read? f).bind fun y => rest.read? (make y) f
  rebuild make x := rest.rebuild (make (get x)) x
  write_eq x := by
    have hpart : r.write (get x) = written r.slots (get x) := r.fields.write_eq _
    simp only [written, List.map_append, List.map_map, List.flatten_append, hpart, rest.write_eq]
    rfl
  read?_eq {make x f} h := by
    obtain ⟨hpart, hrest⟩ := List.forall_mem_append.mp h
    rw [r.read?_eq (List.forall_mem_map.mp hpart), Option.bind_some, rest.read?_eq hrest]

section Members

variable [JsonForm β] [Lawful β] {key : String} {rest : Slots α γ}

omit [JsonForm β] [Lawful β] in
@[simp] theorem slots_nil : (nil : Slots α α).slots = [] := rfl

@[simp] theorem slots_required (get : α → β) :
    (required key get rest).slots = .ofRequired key get :: rest.slots := rfl

@[simp] theorem slots_orElse (default : β) (get : α → β) :
    (orElse key default get rest).slots = .ofRequired key get :: rest.slots := rfl

@[simp] theorem slots_optional (get : α → Option β) :
    (optional key get rest).slots = .ofSome key get :: rest.slots := rfl

omit [JsonForm β] [Lawful β] in
@[simp] theorem slots_word32 (get : α → Nat) :
    (word32 key get rest).slots = .ofWord32 key get :: rest.slots := rfl

end Members

end Slots

/-- A record that is written and read by its shape is lawful. -/
@[reducible] def Lawful.ofShape {α : Type} [JsonForm α] (r : Shape α)
    (hwrites : ∀ x : α, toJson x = .obj (r.write x))
    (hreads : ∀ members, JsonForm.ofJson? (.obj members) = r.read? fun key => members.lookup key)
    (hnull : (JsonForm.ofJson? .null : Option α) = none) : Lawful α where
  Fits x := ∀ s ∈ r.slots, s.Fits x
  respells := .record (known r.slots)
  depth := depthOf r.slots
  plain {x} h := hwrites x ▸ r.plain_write h
  rearranged hg x := hwrites x ▸ r.rearranged_write hg
  reads {x} {j} h hj := by
    rw [hwrites] at hj
    obtain ⟨members, rfl, hmembers⟩ := r.reads_of_respelled h hj
    rw [hreads, r.read?_eq hmembers]
  null_unread := hnull

/-! ## What lawful types promise -/

/-- Whatever is written is read again: as a value, from its text, and from any other spelling. -/
def RoundTrips (α : Type) [JsonForm α] [Lawful α] : Prop :=
  ∀ x : α, Lawful.Fits x → as? α (toJson x) = some x ∧
    (read? (toJson x).render).bind (as? α) = some x ∧
    ∀ j, Lawful.respells α (toJson x) j → as? α j = some x

theorem roundTrips (α : Type) [JsonForm α] [Lawful α] (hdepth : Lawful.depth α ≤ maxDepth) :
    RoundTrips α := by
  intro x hfits
  refine ⟨?_, ?_, fun j hj => Lawful.reads hfits hj⟩
  · exact Lawful.reads hfits (Lawful.rearranged rearranges_id x)
  · rw [read?_render ((Lawful.plain hfits).mono hdepth), Option.bind_some]
    exact Lawful.reads hfits (Lawful.rearranged rearranges_sorted x)

end SolutionAtlas.Json
