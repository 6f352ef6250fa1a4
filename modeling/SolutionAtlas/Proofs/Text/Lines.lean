-- SUMMARY: The lines of a text are as many as a count over its bytes finds.
import Mathlib
import SolutionAtlas.Proofs.Path
import SolutionAtlas.Text.Lines

/-!
# Numbers of lines

Both ways to count lines find one for every line feed, and one more when the text does not end in a line feed. In
bytes a line feed is told by its code alone: no byte of another character has it.
-/

namespace SolutionAtlas.Text

/-- What a text holds behind its last line feed is a line of its own, unless it is empty. -/
def openLines (s : List Char) : Nat :=
  if s.getLast?.all (· == '\n') then 0 else 1

/-! ## Lines of characters -/

theorem splitChars_ne_nil (p : Char → Bool) (s : List Char) : splitChars p s ≠ [] := by
  rw [splitChars_eq_splitOnP]
  exact List.splitOnP_ne_nil p s

/-- There is one piece more than there are characters to split at. -/
theorem length_splitChars (p : Char → Bool) (s : List Char) : (splitChars p s).length = s.countP p + 1 := by
  induction s with
  | nil => rfl
  | cons c s ih =>
    rw [splitChars, List.countP_cons]
    split
    · rw [List.length_cons, ih]
    · split
      · rename_i piece rest hpieces
        rw [hpieces] at ih
        exact ih
      · rename_i hnone
        exact absurd hnone (splitChars_ne_nil p s)

/-- The last piece is empty when the text is, or when the text ends where it is split. -/
theorem getLast?_splitChars (p : Char → Bool) (s : List Char) :
    (splitChars p s).getLast? = some [] ↔ s.getLast?.all p = true := by
  induction s with
  | nil => simp [splitChars]
  | cons c s ih =>
    have hlast : (c :: s).getLast?.all p = if s = [] then p c else s.getLast?.all p := by
      cases s <;> simp
    rw [splitChars, hlast]
    cases hpieces : splitChars p s with
    | nil => exact absurd hpieces (splitChars_ne_nil p s)
    | cons piece rest =>
      rw [hpieces] at ih
      have hlength := length_splitChars p s
      rw [hpieces, List.length_cons] at hlength
      cases hc : p c with
      | true =>
        rw [if_pos rfl, List.getLast?_cons_cons, ih]
        cases s <;> simp
      | false =>
        rw [if_neg Bool.false_ne_true]
        cases rest with
        | nil =>
          -- Nothing in the text is split at, so its only piece holds its first character.
          have hnone : ∀ d ∈ s, ¬p d = true := List.countP_eq_zero.mp (by simpa using hlength.symm)
          refine iff_of_false (by simp) ?_
          split
          · exact Bool.false_ne_true
          · rename_i hne
            rw [List.getLast?_eq_some_getLast hne]
            exact hnone _ (List.getLast_mem hne)
        | cons next rest =>
          have hne : s ≠ [] := by
            rintro rfl
            simp at hlength
          rw [if_neg hne, List.getLast?_cons_cons, ← ih, List.getLast?_cons_cons]

/-- Each line feed ends a line, and what is open behind the last of them is one more. -/
theorem length_linesChars (s : List Char) : (linesChars s).length = s.count '\n' + openLines s := by
  have hlength := length_splitChars (· == '\n') s
  have hlast := getLast?_splitChars (· == '\n') s
  rw [linesChars, openLines, List.count]
  rw [← List.head?_reverse] at hlast
  rw [← List.length_reverse] at hlength
  split
  · rename_i earlier hpieces
    rw [hpieces] at hlast hlength
    rw [if_pos (hlast.mp rfl), List.length_map, List.length_reverse]
    exact Nat.succ.inj hlength
  · rename_i last earlier hopen hpieces
    rw [hpieces] at hlast hlength
    have hne : ¬s.getLast?.all (· == '\n') = true := fun h => hopen (Option.some.inj (hlast.mpr h))
    rw [if_neg hne, List.length_append, List.length_map, List.length_reverse]
    exact hlength
  · rename_i hpieces
    exact absurd (List.reverse_eq_nil_iff.mp hpieces) (splitChars_ne_nil _ s)

/-! ## Lines of bytes -/

/-- In bytes, the code of a line feed comes from line feeds only. -/
theorem eq_newline_of_mem_utf8EncodeChar {c : Char} (h : 10 ∈ String.utf8EncodeChar c) : c = '\n' := by
  have hbyte {n : Nat} (hn : (10 : UInt8) = UInt8.ofNat n) : n % 256 = 10 := by
    simpa using (congrArg UInt8.toNat hn).symm
  unfold String.utf8EncodeChar at h
  dsimp only at h
  split at h
  · rename_i hascii
    have hcode := hbyte (List.mem_singleton.mp h)
    have hval : c.val.toNat = 10 := by omega
    exact Char.ext (UInt32.toNat_inj.mp hval)
  · -- The bytes of every other character are above 127.
    split at h
    · simp only [List.mem_cons, List.not_mem_nil, or_false] at h
      rcases h with h | h <;> have := hbyte h <;> omega
    · split at h
      · simp only [List.mem_cons, List.not_mem_nil, or_false] at h
        rcases h with h | h | h <;> have := hbyte h <;> omega
      · simp only [List.mem_cons, List.not_mem_nil, or_false] at h
        rcases h with h | h | h | h <;> have := hbyte h <;> omega

theorem count_utf8EncodeChar (c : Char) : (String.utf8EncodeChar c).count 10 = if c == '\n' then 1 else 0 := by
  split
  · rename_i hc
    rw [beq_iff_eq.mp hc]
    rfl
  · rename_i hc
    exact List.count_eq_zero.mpr fun h => hc (beq_iff_eq.mpr (eq_newline_of_mem_utf8EncodeChar h))

theorem getLast?_utf8EncodeChar (c : Char) :
    ∃ b, (String.utf8EncodeChar c).getLast? = some b ∧ (b == 10) = (c == '\n') := by
  have hne : String.utf8EncodeChar c ≠ [] := by
    unfold String.utf8EncodeChar
    dsimp only
    split_ifs <;> exact List.cons_ne_nil _ _
  refine ⟨_, List.getLast?_eq_some_getLast hne, ?_⟩
  rw [Bool.eq_iff_iff, beq_iff_eq, beq_iff_eq]
  constructor
  · intro h
    exact eq_newline_of_mem_utf8EncodeChar (h ▸ List.getLast_mem hne)
  · rintro rfl
    rfl

theorem data_toUTF8 (s : String) : s.toUTF8.data.toList = s.toList.flatMap String.utf8EncodeChar := by
  conv_lhs => rw [← String.ofList_toList (s := s)]
  rw [String.toUTF8_eq_toByteArray]
  exact List.toList_data_toByteArray

/-- A count over bytes finds each line feed, and what is open behind the last of them. -/
theorem countLines_toUTF8 (s : String) : countLines s.toUTF8 = s.toList.count '\n' + openLines s.toList := by
  have hcount : (s.toList.flatMap String.utf8EncodeChar).count 10 = s.toList.count '\n' := by
    induction s.toList with
    | nil => rfl
    | cons c cs ih => rw [List.flatMap_cons, List.count_append, ih, count_utf8EncodeChar, List.count_cons, Nat.add_comm]
  rw [countLines, data_toUTF8, openLines]
  rcases List.eq_nil_or_concat' s.toList with hnil | ⟨front, c, hconcat⟩
  · rw [hnil]
    rfl
  · obtain ⟨b, hlast, hfeed⟩ := getLast?_utf8EncodeChar c
    have hend : (s.toList.flatMap String.utf8EncodeChar).getLast? = some b := by
      rw [hconcat, List.flatMap_append, List.flatMap_singleton, List.getLast?_append, hlast]
      rfl
    rw [hend, hconcat, List.getLast?_concat, ← hconcat]
    simp only [hcount, hfeed, Option.all_some]

/-! ## Both counts -/

/-- The bytes of a text have as many lines as the text. -/
theorem countLines_of_fromUTF8? {bytes : ByteArray} {s : String} (h : String.fromUTF8? bytes = some s) :
    countLines bytes = (lines s).length := by
  unfold String.fromUTF8? at h
  split at h
  · obtain rfl := Option.some.inj h
    rw [lines, List.length_map, length_linesChars, ← countLines_toUTF8]
    rfl
  · cases h

example : (lines "a\r\n\rb\n\nc\r").length = 4 := by decide +kernel

end SolutionAtlas.Text
