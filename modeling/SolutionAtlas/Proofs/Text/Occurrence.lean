-- SUMMARY: Searching in text, told by its characters: what it starts and ends with, what occurs in it, and where it is cut.
import Mathlib
import SolutionAtlas.Text.Lowercase
import SolutionAtlas.Text.Slice

/-!
# Occurrences

A text starts or ends with another when its characters begin or end with those of the other, and holds it when
they stand in it without a gap. It is cut at the first such place.
-/

namespace SolutionAtlas.Text

theorem isSome_dropLead?_iff {lead s : List Char} : (dropLead? lead s).isSome = true ↔ lead <+: s := by
  induction lead generalizing s with
  | nil => simp [dropLead?]
  | cons a lead ih =>
    cases s with
    | nil => simp [dropLead?]
    | cons c s =>
      by_cases hac : a = c
      · simp [dropLead?, hac, ih, List.cons_prefix_cons]
      · simp [dropLead?, hac, List.cons_prefix_cons]

theorem isSome_cutAt?_iff {needle s : List Char} :
    (cutAt? needle s).isSome = true ↔ needle <:+: s := by
  induction s with
  | nil =>
    rw [cutAt?, Option.isSome_map, isSome_dropLead?_iff, List.prefix_nil, List.infix_nil]
  | cons c s ih =>
    rw [List.infix_cons_iff, ← isSome_dropLead?_iff, ← ih, cutAt?]
    cases dropLead? needle (c :: s) <;> simp

theorem startsWith_iff {s lead : String} : startsWith s lead = true ↔ lead.toList <+: s.toList :=
  isSome_dropLead?_iff

theorem endsWith_iff {s tail : String} : endsWith s tail = true ↔ tail.toList <:+ s.toList := by
  rw [endsWith, isSome_dropLead?_iff]
  exact List.reverse_prefix

theorem occursIn_iff {needle s : String} : occursIn needle s = true ↔ needle.toList <:+: s.toList :=
  isSome_cutAt?_iff

/-! ## Cuts -/

section Cut

variable {c : Char} {needle front s u v : List Char}

theorem beforeFirst_append (h : c ∉ front) (s : List Char) : beforeFirst c (front ++ c :: s) = front := by
  rw [beforeFirst, List.takeWhile_append_of_pos fun a ha => by simpa using fun heq : a = c => h (heq ▸ ha)]
  simp

theorem beforeFirst_eq_self (h : c ∉ s) : beforeFirst c s = s :=
  List.takeWhile_eq_self_iff.mpr fun a ha => by simpa using fun heq : a = c => h (heq ▸ ha)

theorem afterLast_append (h : c ∉ s) (front : List Char) : afterLast c (front ++ c :: s) = s := by
  have hreverse : (front ++ c :: s).reverse = s.reverse ++ c :: front.reverse := by simp
  have htake : (s.reverse ++ c :: front.reverse).takeWhile (· != c) = s.reverse :=
    beforeFirst_append (by simpa using h) front.reverse
  rw [afterLast, hreverse, htake, List.reverse_reverse]

theorem afterLast_eq_self (h : c ∉ s) : afterLast c s = s := by
  have htake : s.reverse.takeWhile (· != c) = s.reverse := beforeFirst_eq_self (by simpa using h)
  rw [afterLast, htake, List.reverse_reverse]

theorem trimChars_eq_self (h : ∀ a ∈ s, isBlank a = false) : trimChars s = s := by
  have hdrop {s : List Char} (h : ∀ a ∈ s, isBlank a = false) : s.dropWhile isBlank = s :=
    List.dropWhile_eq_self_iff.mpr fun hlength => Bool.eq_false_iff.mp (h _ (List.getElem_mem hlength))
  rw [trimChars, trimStartChars, hdrop h, trimEndChars, hdrop fun a ha => h a (List.mem_reverse.mp ha),
    List.reverse_reverse]

/-- A text is divided at a character in one way only, when it does not stand in front. -/
theorem append_cons_inj (hu : c ∉ u) (hv : c ∉ v) (h : u ++ c :: front = v ++ c :: s) : u = v ∧ front = s := by
  have hsame : u = v := by rw [← beforeFirst_append hu front, h, beforeFirst_append hv]
  rw [hsame] at h
  exact ⟨hsame, (List.cons.inj (List.append_cancel_left h)).2⟩

theorem dropLead?_append (lead s : List Char) : dropLead? lead (lead ++ s) = some s := by
  induction lead with
  | nil => rfl
  | cons a lead ih => simpa [dropLead?] using ih

theorem dropLead?_eq_none {lead : List Char} (h : ¬lead <+: s) : dropLead? lead s = none := by
  rw [← Option.not_isSome_iff_eq_none, isSome_dropLead?_iff]
  exact h

theorem dropLead?_eq_some {lead : List Char} (h : dropLead? lead s = some v) : s = lead ++ v := by
  obtain ⟨rest, rfl⟩ := isSome_dropLead?_iff.mp (h ▸ rfl : (dropLead? lead s).isSome = true)
  rw [dropLead?_append] at h
  rw [Option.some.inj h]

theorem cutAt?_eq_some (h : cutAt? needle s = some (u, v)) : s = u ++ (needle ++ v) := by
  induction s generalizing u with
  | nil =>
    obtain ⟨rest, hrest, heq⟩ := Option.map_eq_some_iff.mp h
    cases heq
    rw [List.nil_append]
    exact dropLead?_eq_some hrest
  | cons a s ih =>
    rw [cutAt?] at h
    split at h
    · rename_i rest hrest
      cases h
      rw [List.nil_append]
      exact dropLead?_eq_some hrest
    · obtain ⟨⟨u', v'⟩, hcut, heq⟩ := Option.map_eq_some_iff.mp h
      cases heq
      rw [ih hcut]
      rfl

theorem cutAt?_append (hne : needle ≠ []) (s : List Char) : cutAt? needle (needle ++ s) = some ([], s) := by
  have hlead := dropLead?_append needle s
  cases needle with
  | nil => exact absurd rfl hne
  | cons a needle =>
    rw [List.cons_append, cutAt?]
    rw [List.cons_append] at hlead
    rw [hlead]

/-- What cannot begin an occurrence is passed over. -/
theorem cutAt?_cons_of_not_prefix (h : ¬needle <+: c :: s) :
    cutAt? needle (c :: s) = (cutAt? needle s).map fun cut => (c :: cut.1, cut.2) := by
  rw [cutAt?, dropLead?_eq_none h]

theorem cutAt?_skip (h : c ∉ front) (s : List Char) :
    cutAt? (c :: needle) (front ++ s) = (cutAt? (c :: needle) s).map fun cut => (front ++ cut.1, cut.2) := by
  induction front with
  | nil => simp
  | cons a front ih =>
    obtain ⟨hne, hfront⟩ := not_or.mp (mt List.mem_cons.mpr h)
    have hnot : ¬c :: needle <+: a :: (front ++ s) := fun hlead => hne (List.cons_prefix_cons.mp hlead).1
    rw [List.cons_append, cutAt?_cons_of_not_prefix hnot, ih hfront, Option.map_map]
    rfl

/-- A text is cut at the first occurrence, which is found by a character that is not in front of it. -/
theorem cutAt?_of_not_mem {lead : List Char} (hlead : c ∉ lead) (hu : c ∉ u) (tail v : List Char) :
    cutAt? (lead ++ c :: tail) (u ++ (lead ++ c :: tail ++ v)) = some (u, v) := by
  induction u with
  | nil => exact cutAt?_append (by simp) v
  | cons a u ih =>
    have hnot : ¬lead ++ c :: tail <+: a :: (u ++ (lead ++ c :: tail ++ v)) := by
      rintro ⟨rest, hrest⟩
      have hsplit : lead ++ c :: (tail ++ rest) = (a :: u ++ lead) ++ c :: (tail ++ v) := by
        simpa using hrest
      have hall : c ∉ a :: u ++ lead := by
        rw [List.mem_append, not_or]
        exact ⟨hu, hlead⟩
      obtain ⟨hsame, -⟩ := append_cons_inj hlead hall hsplit
      have hlength := congrArg List.length hsame
      simp only [List.length_append, List.length_cons] at hlength
      omega
    rw [List.cons_append, cutAt?_cons_of_not_prefix hnot, ih (mt (List.mem_cons_of_mem a) hu), Option.map_some]

end Cut

/-! ## Case -/

/-- What is no letter is the lower-case form of itself alone. -/
theorem toLower_eq_iff {c b : Char} (hb : b.isAlpha = false) : c.toLower = b ↔ c = b := by
  have hcase {c : Char} (h : c.isUpper = true ∨ c.isLower = true) : c.isAlpha = true := by
    rw [Char.isAlpha, Bool.or_eq_true]
    exact h
  unfold Char.toLower
  split
  · rename_i h
    obtain ⟨hA, hZ⟩ : 65 ≤ c.val.toNat ∧ c.val.toNat ≤ 90 := h
    refine iff_of_false (fun heq => ?_) ?_
    · have hval : (c.val.toNat + 32) % 2 ^ 32 = b.val.toNat := congrArg (fun d : Char => d.val.toNat) heq
      have ha : 97 ≤ b.val.toNat := by omega
      have hz : b.val.toNat ≤ 122 := by omega
      have hlower : b.isLower = true := Bool.and_eq_true_iff.mpr ⟨decide_eq_true ha, decide_eq_true hz⟩
      rw [hcase (.inr hlower)] at hb
      cases hb
    · rintro rfl
      have hupper : c.isUpper = true := by
        simpa [Char.isUpper, UInt32.le_iff_toNat_le, ← Char.toNat_val] using And.intro hA hZ
      rw [hcase (.inl hupper)] at hb
      cases hb
  · exact Iff.rfl
/-- The text occurs in the lower-case form of another. -/
def FoundIn (needle s : String) : Prop :=
  needle.toList <:+: (lower s).toList

instance (needle s : String) : Decidable (FoundIn needle s) :=
  inferInstanceAs (Decidable (needle.toList <:+: (lower s).toList))

theorem foundIn_iff {needle s : String} : FoundIn needle s ↔ occursIn needle (lower s) = true :=
  occursIn_iff.symm

end SolutionAtlas.Text
