-- SUMMARY: What the summary of a documentation text shows of its pieces, and where it cuts a reference short.
import Mathlib
import SolutionAtlas.CSharp.DocComment
import SolutionAtlas.Proofs.Disk.Places

/-!
# Summaries of documentation texts

A documentation text is a sequence of plain texts and tags. The summary shows the plain texts as they stand and
leaves of each tag what it refers to, or a blank. A reference to a symbol is shown by what follows the last point
or colon of all its text. That is the name with its parameters, unless a point or a colon stands in these.
-/

namespace SolutionAtlas.CSharp

/-! ## Markup -/

/-- A piece of a documentation text. -/
inductive Markup where
  | plain (text : List Char)
  | tag (text : List Char)

namespace Markup

/-- The text of a piece without the brackets around a tag. -/
def inner : Markup → List Char
  | plain text => text
  | tag text => text

def source : Markup → List Char
  | plain text => text
  | tag text => '<' :: (text ++ ['>'])

/-- What is left of a piece. -/
def shown : Markup → List Char
  | plain text => text
  | tag text => tagText text

/-- The piece is a tag with a text, whatever the case of its letters. -/
def IsTagOf (text : String) : Markup → Prop
  | plain _ => False
  | tag t => t.map Char.toLower = text.toList

/-- No bracket stands inside. -/
structure Whole (m : Markup) : Prop where
  opens : '<' ∉ m.inner
  closes : '>' ∉ m.inner

/-- A piece that neither begins nor ends a summary. -/
structure Ordinary (m : Markup) : Prop extends Whole m where
  no_begin : ¬m.IsTagOf "summary"
  no_end : ¬m.IsTagOf "/summary"

instance (text : String) : DecidablePred (IsTagOf text)
  | plain _ => inferInstanceAs (Decidable False)
  | tag t => inferInstanceAs (Decidable (t.map Char.toLower = text.toList))

instance : DecidablePred Ordinary := fun m =>
  decidable_of_iff (('<' ∉ m.inner ∧ '>' ∉ m.inner) ∧ ¬m.IsTagOf "summary" ∧ ¬m.IsTagOf "/summary")
    ⟨fun ⟨⟨hopens, hcloses⟩, hbegin, hend⟩ => ⟨⟨hopens, hcloses⟩, hbegin, hend⟩,
      fun h => ⟨⟨h.opens, h.closes⟩, h.no_begin, h.no_end⟩⟩

end Markup

variable {ms : List Markup}

/-! ## Removing tags -/

theorem length_source_pos (text : List Char) : 0 < (Markup.tag text).source.length := by
  simp [Markup.source]

/-- Without its tags a text shows what each piece leaves, when there is fuel for each piece. -/
theorem stripTags_source {fuel : Nat} (front : List Char) (hms : ∀ m ∈ ms, m.Whole) (hfront : '<' ∉ front)
    (hfuel : (ms.flatMap Markup.source).length ≤ fuel) :
    stripTags fuel (front ++ ms.flatMap Markup.source) = front ++ ms.flatMap Markup.shown := by
  induction ms generalizing fuel front with
  | nil =>
    cases fuel with
    | zero => rfl
    | succ fuel => simp [stripTags, Text.beforeFirst_eq_self hfront]
  | cons m ms ih =>
    obtain ⟨hm, hrest⟩ := List.forall_mem_cons.mp hms
    rw [List.flatMap_cons, List.length_append] at hfuel
    rw [List.flatMap_cons, List.flatMap_cons, ← List.append_assoc, ← List.append_assoc]
    cases m with
    | plain text =>
      have hmore : '<' ∉ front ++ text := by
        rw [List.mem_append, not_or]
        exact ⟨hfront, hm.opens⟩
      exact ih (front ++ text) hrest hmore ((Nat.le_add_left _ _).trans hfuel)
    | tag text =>
      obtain ⟨fuel, rfl⟩ : ∃ n, fuel = n + 1 :=
        Nat.exists_eq_succ_of_ne_zero (by have := length_source_pos text; omega)
      have henough : (ms.flatMap Markup.source).length ≤ fuel := by
        have := length_source_pos text
        omega
      have hbehind : stripTags fuel (ms.flatMap Markup.source) = ms.flatMap Markup.shown :=
        ih [] hrest List.not_mem_nil henough
      have hopens : Text.beforeFirst '<' (front ++ '<' :: (text ++ '>' :: ms.flatMap Markup.source)) = front :=
        Text.beforeFirst_append hfront _
      have hcloses : Text.beforeFirst '>' (text ++ '>' :: ms.flatMap Markup.source) = text :=
        Text.beforeFirst_append hm.closes _
      have hsource : front ++ (Markup.tag text).source ++ ms.flatMap Markup.source =
          front ++ '<' :: (text ++ '>' :: ms.flatMap Markup.source) := by
        simp [Markup.source]
      rw [hsource, stripTags]
      simp only [hopens, List.drop_left, hcloses]
      simp [Markup.shown, hbehind]

/-! ## The body of a summary -/

theorem bracket_not_mem_lower {b : Char} (hb : b = '<' ∨ b = '>') {text : List Char} (h : b ∉ text) :
    b ∉ text.map Char.toLower := by
  intro hmem
  obtain ⟨c, hc, hlower⟩ := List.mem_map.mp hmem
  have hletter : b.isAlpha = false := by rcases hb with rfl | rfl <;> decide
  exact h ((Text.toLower_eq_iff hletter).mp hlower ▸ hc)

/-- A tag is found by its text, behind all pieces that are not such tags. -/
theorem cutAt?_source (text : String) (htext : '>' ∉ text.toList) (hms : ∀ m ∈ ms, m.Whole)
    (hother : ∀ m ∈ ms, ¬m.IsTagOf text) (rest : List Char) :
    Text.cutAt? ('<' :: (text.toList ++ ['>'])) ((ms.flatMap Markup.source).map Char.toLower ++ rest) =
      (Text.cutAt? ('<' :: (text.toList ++ ['>'])) rest).map fun cut =>
        ((ms.flatMap Markup.source).map Char.toLower ++ cut.1, cut.2) := by
  induction ms with
  | nil => simp
  | cons m ms ih =>
    obtain ⟨hm, hwhole⟩ := List.forall_mem_cons.mp hms
    obtain ⟨hno, hnone⟩ := List.forall_mem_cons.mp hother
    have hrest := ih hwhole hnone
    rw [List.flatMap_cons, List.map_append, List.append_assoc]
    cases m with
    | plain t =>
      have hopens : '<' ∉ t.map Char.toLower := bracket_not_mem_lower (.inl rfl) hm.opens
      rw [Markup.source, Text.cutAt?_skip hopens, hrest, Option.map_map]
      simp [Function.comp_def]
    | tag t =>
      have hcloses : '>' ∉ t.map Char.toLower := bracket_not_mem_lower (.inr rfl) hm.closes
      have hopens : '<' ∉ t.map Char.toLower ++ ['>'] := by
        rw [List.mem_append, not_or]
        exact ⟨bracket_not_mem_lower (.inl rfl) hm.opens, by decide⟩
      have hnot : ¬('<' :: (text.toList ++ ['>']) <+:
          '<' :: ((t.map Char.toLower ++ ['>']) ++ ((ms.flatMap Markup.source).map Char.toLower ++ rest))) := by
        rintro ⟨more, hmore⟩
        rw [List.cons_append, List.append_assoc, List.append_assoc] at hmore
        exact hno (Text.append_cons_inj htext hcloses (List.cons.inj hmore).2).1.symm
      have hsource : (Markup.tag t).source.map Char.toLower = '<' :: (t.map Char.toLower ++ ['>']) := by
        simp [Markup.source]
      rw [hsource, List.cons_append, Text.cutAt?_cons_of_not_prefix hnot, Text.cutAt?_skip hopens, hrest,
        Option.map_map, Option.map_map]
      simp [Function.comp_def]

section Element

variable {before body after : List Markup} {start stop : List Char}

theorem find?_source (text : String) (htext : '>' ∉ text.toList) (hms : ∀ m ∈ ms, m.Whole)
    (hother : ∀ m ∈ ms, ¬m.IsTagOf text) {t : List Char} (ht : (Markup.tag t).IsTagOf text) (rest : List Markup) :
    Text.find? ('<' :: (text.toList ++ ['>']))
        (((ms ++ .tag t :: rest).flatMap Markup.source).map Char.toLower) =
      some (ms.flatMap Markup.source).length := by
  have hlower : t.map Char.toLower = text.toList := ht
  have hsource : ((ms ++ .tag t :: rest).flatMap Markup.source).map Char.toLower =
      (ms.flatMap Markup.source).map Char.toLower ++
        ('<' :: (text.toList ++ ['>']) ++ (rest.flatMap Markup.source).map Char.toLower) := by
    simp [Markup.source, hlower]
  rw [hsource, Text.find?, cutAt?_source text htext hms hother, Text.cutAt?_append (List.cons_ne_nil _ _)]
  simp

theorem toList_summary_begin : "<summary>".toList = '<' :: ("summary".toList ++ ['>']) := by decide

theorem toList_summary_end : "</summary>".toList = '<' :: ("/summary".toList ++ ['>']) := by decide

/-- A text without tags of a summary is the summary as a whole. -/
theorem summaryBody_source (hbody : ∀ m ∈ body, m.Ordinary) :
    summaryBody (body.flatMap Markup.source) = body.flatMap Markup.source := by
  have hnone : Text.find? "<summary>".toList ((body.flatMap Markup.source).map Char.toLower) = none := by
    have hcut := cutAt?_source "summary" (by decide) (fun m hm => (hbody m hm).toWhole)
      (fun m hm => (hbody m hm).no_begin) []
    rw [List.append_nil] at hcut
    rw [Text.find?, toList_summary_begin, hcut]
    rfl
  simp only [summaryBody, hnone]

theorem whole_of_isTagOf {text : String} (hopens : '<' ∉ text.toList) (hcloses : '>' ∉ text.toList) {t : List Char}
    (h : (Markup.tag t).IsTagOf text) : (Markup.tag t).Whole := by
  have hlower : t.map Char.toLower = text.toList := h
  constructor
  · exact fun hmem => hopens (hlower ▸ List.mem_map.mpr ⟨'<', hmem, by decide⟩)
  · exact fun hmem => hcloses (hlower ▸ List.mem_map.mpr ⟨'>', hmem, by decide⟩)

/-- The tags of the only element of a summary are where they stand. -/
theorem find?_element (hbefore : ∀ m ∈ before, m.Ordinary) (hbody : ∀ m ∈ body, m.Ordinary)
    (hstart : (Markup.tag start).IsTagOf "summary") (hstop : (Markup.tag stop).IsTagOf "/summary")
    (after : List Markup) :
    let plain := ((before ++ .tag start :: (body ++ .tag stop :: after)).flatMap Markup.source).map Char.toLower
    Text.find? "<summary>".toList plain = some (before.flatMap Markup.source).length ∧
      Text.find? "</summary>".toList plain =
        some ((before ++ .tag start :: body).flatMap Markup.source).length := by
  have hinside : ∀ m ∈ before ++ .tag start :: body, m.Whole ∧ ¬m.IsTagOf "/summary" := by
    intro m hm
    rcases List.mem_append.mp hm with hm | hm
    · exact ⟨(hbefore m hm).toWhole, (hbefore m hm).no_end⟩
    · rcases List.mem_cons.mp hm with rfl | hm
      · refine ⟨whole_of_isTagOf (by decide) (by decide) hstart, fun hend => ?_⟩
        have hboth : "summary".toList = "/summary".toList := Eq.trans (Eq.symm hstart) hend
        exact absurd hboth (by decide)
      · exact ⟨(hbody m hm).toWhole, (hbody m hm).no_end⟩
  have hfirst := find?_source "summary" (by decide) (fun m hm => (hbefore m hm).toWhole)
    (fun m hm => (hbefore m hm).no_begin) hstart (body ++ .tag stop :: after)
  have hsecond := find?_source "/summary" (by decide) (fun m hm => (hinside m hm).1)
    (fun m hm => (hinside m hm).2) hstop after
  rw [List.append_assoc, List.cons_append] at hsecond
  rw [toList_summary_begin, toList_summary_end]
  exact ⟨hfirst, hsecond⟩

/-- The only element of a summary holds the summary. -/
theorem summaryBody_element (hbefore : ∀ m ∈ before, m.Ordinary) (hbody : ∀ m ∈ body, m.Ordinary)
    (hstart : (Markup.tag start).IsTagOf "summary") (hstop : (Markup.tag stop).IsTagOf "/summary") :
    summaryBody ((before ++ .tag start :: (body ++ .tag stop :: after)).flatMap Markup.source) =
      body.flatMap Markup.source := by
  obtain ⟨hfirst, hsecond⟩ := find?_element hbefore hbody hstart hstop after
  have hlength : (Markup.tag start).source.length = "<summary>".length := by
    have hseven : start.length = 7 := by simpa using congrArg List.length (show start.map _ = _ from hstart)
    have hnine : "<summary>".length = 9 := by decide
    simp [Markup.source, hseven, hnine]
  have hfront : (before ++ .tag start :: body).flatMap Markup.source =
      (before.flatMap Markup.source ++ (Markup.tag start).source) ++ body.flatMap Markup.source := by
    simp
  have hdoc : (before ++ .tag start :: (body ++ .tag stop :: after)).flatMap Markup.source =
      (before ++ .tag start :: body).flatMap Markup.source ++ (Markup.tag stop :: after).flatMap Markup.source := by
    simp
  have hlater : (before.flatMap Markup.source).length <
      ((before ++ .tag start :: body).flatMap Markup.source).length := by
    rw [hfront, List.length_append, List.length_append]
    have := length_source_pos start
    omega
  rw [summaryBody]
  simp only [hfirst, hsecond]
  rw [if_pos hlater, hdoc, List.take_left, hfront, ← hlength, ← List.length_append, List.drop_left]

end Element

/-! ## Collapsing -/

/-- The words of a text, between its blanks. -/
def wordsOf (text : List Char) : List (List Char) :=
  (text.splitOnP Text.isBlank).filter (· ≠ [])

/-- The words of a text with single spaces between them, if there are any. -/
def collapsed? (text : List Char) : Option String :=
  if wordsOf text = [] then none else some (" ".intercalate ((wordsOf text).map String.ofList))

theorem wordsChars_eq (text : List Char) : Text.wordsChars text = wordsOf text := by
  rw [Text.wordsChars, wordsOf, Text.splitChars_eq_splitOnP]
  refine List.filter_congr fun word _ => ?_
  cases word <;> rfl

theorem collapsed?_eq (text : List Char) :
    (let shown := Text.collapseBlanks (String.ofList text)
      if shown.isEmpty then none else some shown) = collapsed? text := by
  rw [collapsed?, Text.collapseBlanks, String.toList_ofList, wordsChars_eq]
  cases hwords : wordsOf text with
  | nil => rfl
  | cons word words =>
    have hword : word ≠ [] := by
      have hmem : word ∈ wordsOf text := hwords ▸ List.mem_cons_self
      simpa using (List.mem_filter.mp hmem).2
    have hfilled : (" ".intercalate ((word :: words).map String.ofList)).isEmpty = false := by
      rw [Bool.eq_false_iff, Ne, String.isEmpty_iff, ← String.toList_eq_nil_iff]
      cases words with
      | nil => simpa using hword
      | cons next words => simp [hword]
    simp only [hfilled, List.cons_ne_nil, if_false, Bool.false_eq_true]

theorem wordsOf_eq_nil_iff {text : List Char} : wordsOf text = [] ↔ ∀ c ∈ text, Text.isBlank c = true := by
  rw [wordsOf, List.filter_eq_nil_iff]
  induction text with
  | nil => simp
  | cons c text ih =>
    rw [List.splitOnP_cons_eq_if_modifyHead, List.forall_mem_cons, ← ih]
    cases hc : Text.isBlank c with
    | true => simp
    | false =>
      obtain ⟨word, words, hsplit⟩ := List.exists_cons_of_ne_nil (List.splitOnP_ne_nil Text.isBlank text)
      simp [hsplit]

theorem collapsed?_eq_none_iff {text : List Char} :
    collapsed? text = none ↔ ∀ c ∈ text, Text.isBlank c = true := by
  rw [← wordsOf_eq_nil_iff, collapsed?]
  split <;> simp_all

theorem docSummary_eq {doc : List Char} (hms : ∀ m ∈ ms, m.Whole)
    (hbody : summaryBody doc = ms.flatMap Markup.source) :
    docSummary (String.ofList doc) = collapsed? (ms.flatMap Markup.shown) := by
  have hstrip := stripTags_source [] hms List.not_mem_nil le_rfl
  rw [List.nil_append, List.nil_append] at hstrip
  rw [docSummary, String.toList_ofList, hbody, hstrip]
  exact collapsed?_eq _

/-! ## Tags with one attribute -/

/-- What stands around the key and the value of an attribute that is the only one of its tag. -/
structure TagForm where
  /-- The name of the element and a blank. -/
  lead : List Char
  /-- The blanks in front of the equality sign. -/
  before : List Char
  /-- The blanks behind it. -/
  behind : List Char
  tail : List Char

namespace TagForm

def text (f : TagForm) (key : String) (value : List Char) : List Char :=
  f.lead ++ key.toList ++ f.before ++ '=' :: (f.behind ++ '"' :: (value ++ '"' :: f.tail))

structure Ok (f : TagForm) : Prop where
  lead : '=' ∉ f.lead
  before : ∀ c ∈ f.before, Text.isBlank c = true
  behind : ∀ c ∈ f.behind, Text.isBlank c = true
  tail_sign : '=' ∉ f.tail
  tail_quote : '"' ∉ f.tail

/-- There are no blanks around the equality sign. -/
def Tight (f : TagForm) : Prop :=
  f.before = [] ∧ f.behind = []

instance (f : TagForm) : Decidable f.Tight :=
  inferInstanceAs (Decidable (_ ∧ _))

end TagForm

/-- The value of an attribute that can be told from the rest of the tag. -/
structure IsValue (value : List Char) : Prop where
  no_quote : '"' ∉ value
  no_sign : value.getLast? ≠ some '='

section Attribute

variable {f : TagForm} {key asked : String} {value : List Char}

theorem not_mem_of_isBlank {c : Char} {blanks : List Char} (h : ∀ b ∈ blanks, Text.isBlank b = true)
    (hc : Text.isBlank c = false) : c ∉ blanks := by
  intro hmem
  rw [h c hmem] at hc
  cases hc

/-- Behind a quotation mark, an equality sign with another one stands right in front of it or further on. -/
theorem eq_or_exists_of_quote {front rest u v : List Char} (hu : '"' ∉ u)
    (h : front ++ '=' :: '"' :: rest = u ++ '"' :: v) :
    u = front ++ ['='] ∨ ∃ more, v = more ++ '=' :: '"' :: rest := by
  by_cases hfront : '"' ∈ front
  · obtain ⟨lead, more, rfl, hlead⟩ := List.eq_append_cons_of_mem hfront
    rw [List.append_assoc, List.cons_append] at h
    exact .inr ⟨more, (Text.append_cons_inj hlead hu h).2.symm⟩
  · have hsign : '"' ∉ front ++ ['='] := by
      rw [List.mem_append, not_or]
      exact ⟨hfront, by decide⟩
    have hsplit : (front ++ ['=']) ++ '"' :: rest = u ++ '"' :: v := by
      rw [← h, List.append_assoc]
      rfl
    exact .inl (Text.append_cons_inj hsign hu hsplit).1.symm

/-- What is looked for stands in the tag at most at its attribute. -/
theorem suffix_of_infix (hf : f.Ok) (hvalue : IsValue value) (hkey : '=' ∉ key.toList)
    (hasked : '=' ∉ asked.toList) (h : asked.toList ++ ['=', '"'] <:+: f.text key value) :
    asked.toList <:+ f.lead ++ key.toList ++ f.before ∧ f.behind = [] := by
  obtain ⟨front, rest, htext⟩ := h
  have hlead : '=' ∉ f.lead ++ key.toList ++ f.before := by
    simp only [List.mem_append, not_or]
    exact ⟨⟨hf.lead, hkey⟩, not_mem_of_isBlank hf.before (by decide)⟩
  have hsign : '=' ∉ f.behind := not_mem_of_isBlank hf.behind (by decide)
  have hquote : '"' ∉ f.behind := not_mem_of_isBlank hf.behind (by decide)
  by_cases hfront : '=' ∈ front
  · -- It would have to stand in the value or in the tail.
    exfalso
    obtain ⟨u, v, rfl, hu⟩ := List.eq_append_cons_of_mem hfront
    have hsplit : u ++ '=' :: ((v ++ asked.toList) ++ '=' :: '"' :: rest) = f.text key value := by
      rw [← htext]
      simp
    obtain ⟨-, hrest⟩ := Text.append_cons_inj hu hlead hsplit
    rcases eq_or_exists_of_quote hquote hrest with hbehind | ⟨more, hmore⟩
    · exact hsign (hbehind ▸ by simp)
    · rcases eq_or_exists_of_quote hvalue.no_quote hmore.symm with hlast | ⟨more', htail⟩
      · exact hvalue.no_sign (by rw [hlast, List.getLast?_concat])
      · exact hf.tail_sign (htail ▸ by simp)
  · have hsplit : (front ++ asked.toList) ++ '=' :: '"' :: rest = f.text key value := by
      rw [← htext]
      simp
    have hall : '=' ∉ front ++ asked.toList := by
      rw [List.mem_append, not_or]
      exact ⟨hfront, hasked⟩
    obtain ⟨hsame, hrest⟩ := Text.append_cons_inj hall hlead hsplit
    refine ⟨hsame ▸ List.suffix_append _ _, ?_⟩
    cases hbehind : f.behind with
    | nil => rfl
    | cons c behind =>
      rw [hbehind, List.cons_append] at hrest
      rw [hbehind, ← (List.cons.inj hrest).1] at hquote
      exact absurd List.mem_cons_self hquote

theorem toList_sign (key : String) : (key ++ "=\"").toList = key.toList ++ ['=', '"'] := by
  rw [String.toList_append]
  rfl

/-- The attribute of a tag is read when there are no blanks around its equality sign. -/
theorem tagAttribute?_text (hf : f.Ok) (hvalue : IsValue value) (hkey : '=' ∉ key.toList)
    (htight : f.Tight) : tagAttribute? key (f.text key value) = some value := by
  obtain ⟨hbefore, hbehind⟩ := htight
  have hcut : Text.cutAt? (key.toList ++ ['=', '"']) (f.text key value) = some (f.lead, value ++ '"' :: f.tail) := by
    have hfirst := Text.cutAt?_of_not_mem hkey hf.lead ['"'] (value ++ '"' :: f.tail)
    rw [← hfirst, TagForm.text, hbefore, hbehind]
    simp
  rw [tagAttribute?, toList_sign, hcut]
  simp [Text.beforeFirst_append hvalue.no_quote]

theorem tagAttribute?_eq_none {tag : List Char} (h : ¬key.toList ++ ['=', '"'] <:+: tag) :
    tagAttribute? key tag = none := by
  have hcut : Text.cutAt? (key.toList ++ ['=', '"']) tag = none := by
    rw [← Option.not_isSome_iff_eq_none, Text.isSome_cutAt?_iff]
    exact h
  rw [tagAttribute?, toList_sign, hcut]

/-- The keys of the attributes that refer to something. -/
def IsReferenceKey (key : String) : Prop :=
  key = "cref" ∨ key = "langword"

theorem IsReferenceKey.no_sign (h : IsReferenceKey key) : '=' ∉ key.toList := by
  rcases h with rfl | rfl <;> decide

theorem tagAttribute?_text_eq_none (hf : f.Ok) (hvalue : IsValue value) (hkey : IsReferenceKey key)
    (hasked : IsReferenceKey asked) (hloose : asked = key → ¬f.Tight) :
    tagAttribute? asked (f.text key value) = none := by
  refine tagAttribute?_eq_none fun hinfix => ?_
  obtain ⟨⟨front, hfront⟩, hbehind⟩ := suffix_of_infix hf hvalue hkey.no_sign hasked.no_sign hinfix
  have hlast := congrArg List.getLast? hfront
  by_cases hbefore : f.before = []
  · -- The text in front of the sign ends as the key does.
    by_cases hsame : asked = key
    · exact hloose hsame ⟨hbefore, hbehind⟩
    · rw [hbefore, List.append_nil] at hlast
      rcases hkey with rfl | rfl <;> rcases hasked with rfl | rfl
      · exact hsame rfl
      · simp at hlast
      · simp at hlast
      · exact hsame rfl
  · -- It ends with a blank.
    obtain ⟨blanks, b, hb⟩ := List.eq_nil_or_concat f.before |>.resolve_left hbefore
    rw [List.concat_eq_append] at hb
    have hblank : Text.isBlank b = true := hf.before b (by simp [hb])
    rw [hb, ← List.append_assoc, List.getLast?_concat] at hlast
    rcases hasked with rfl | rfl
    · have : b = 'f' := by simpa using hlast.symm
      rw [this] at hblank
      exact absurd hblank (by decide)
    · have : b = 'd' := by simpa using hlast.symm
      rw [this] at hblank
      exact absurd hblank (by decide)

/-- The end of a text behind its last point and its last colon. -/
def endOf (value : List Char) : List Char :=
  value.rtakeWhile fun c => c != '.' && c != ':'

theorem afterLast_afterLast (value : List Char) : Text.afterLast '.' (Text.afterLast ':' value) = endOf value := by
  rw [Text.afterLast, Text.afterLast, List.reverse_reverse, List.takeWhile_takeWhile, endOf, List.rtakeWhile]
  refine congrArg (fun p => (List.takeWhile p value.reverse).reverse) (funext fun c => ?_)
  rw [Bool.eq_iff_iff]
  simp

/-- A tag with one attribute that refers to something leaves the end of its value. Blanks around the equality
sign hide the attribute. -/
theorem tagText_text (hf : f.Ok) (hvalue : IsValue value) (hkey : IsReferenceKey key) :
    tagText (f.text key value) = if f.Tight then endOf value else [' '] := by
  by_cases htight : f.Tight
  · have hread := tagAttribute?_text hf hvalue hkey.no_sign htight
    have hvalue' : (tagAttribute? "cref" (f.text key value)).or (tagAttribute? "langword" (f.text key value)) =
        some value := by
      rcases hkey with rfl | rfl
      · rw [hread, Option.some_or]
      · have hother : tagAttribute? "cref" (f.text "langword" value) = none :=
          tagAttribute?_text_eq_none hf hvalue (.inr rfl) (.inl rfl) fun h => absurd h (by decide)
        rw [hother, Option.none_or, hread]
    rw [tagText, hvalue', if_pos htight]
    exact afterLast_afterLast value
  · rw [tagText, tagAttribute?_text_eq_none hf hvalue hkey (.inl rfl) fun _ => htight,
      tagAttribute?_text_eq_none hf hvalue hkey (.inr rfl) fun _ => htight, if_neg htight]
    rfl

end Attribute

/-! ## References -/

/-- The character may stand in a name or a word. -/
def IsNamePart (c : Char) : Prop :=
  Text.isBlank c = false ∧ c ≠ '.' ∧ c ≠ ':' ∧ c ≠ '"' ∧ c ≠ '='

instance : DecidablePred IsNamePart := fun c =>
  inferInstanceAs (Decidable (Text.isBlank c = false ∧ c ≠ '.' ∧ c ≠ ':' ∧ c ≠ '"' ∧ c ≠ '='))

/-- A reference to a symbol. -/
structure SymbolReference where
  /-- The letter for the kind of the symbol. -/
  kind : Option Char
  /-- The names in front of that of the symbol. -/
  scopes : List (List Char)
  name : List Char
  /-- What stands between parentheses. -/
  parameters : Option (List Char)

namespace SymbolReference

def parameterList (r : SymbolReference) : List Char :=
  r.parameters.elim [] fun inside => '(' :: (inside ++ [')'])

def text (r : SymbolReference) : List Char :=
  (r.kind.elim [] fun letter => [letter, ':']) ++ r.scopes.flatMap (· ++ ['.']) ++ (r.name ++ r.parameterList)

structure Ok (r : SymbolReference) : Prop where
  kind : r.kind ≠ some '"'
  scopes : ∀ scope ∈ r.scopes, ∀ c ∈ scope, IsNamePart c
  named : r.name ≠ []
  name : ∀ c ∈ r.name, IsNamePart c
  parameters : '"' ∉ r.parameterList

/-- The name of the symbol with its parameters, as they are written. -/
def shown (r : SymbolReference) : List Char :=
  r.name ++ r.parameterList

theorem endOf_append_cons {c : Char} (hc : c = '.' ∨ c = ':') (front rest : List Char) :
    endOf (front ++ c :: rest) = endOf rest := by
  have hstop : ¬(c != '.' && c != ':') = true := by rcases hc with rfl | rfl <;> decide
  induction rest using List.reverseRecOn with
  | nil =>
    rw [endOf, List.rtakeWhile_concat, if_neg hstop]
    rfl
  | append_singleton rest d ih =>
    rw [endOf, endOf] at ih
    rw [← List.cons_append, ← List.append_assoc, endOf, endOf, List.rtakeWhile_concat, List.rtakeWhile_concat, ih]

/-- The end of a reference is the end of the name with its parameters. -/
theorem endOf_text (r : SymbolReference) : endOf r.text = endOf r.shown := by
  rw [text]
  rcases List.eq_nil_or_concat r.scopes with hscopes | ⟨scopes, scope, hscopes⟩
  · rw [hscopes]
    cases r.kind with
    | none => rfl
    | some letter => exact endOf_append_cons (.inr rfl) [letter] _
  · rw [hscopes, List.concat_eq_append, List.flatMap_append]
    simpa [shown] using endOf_append_cons (.inl rfl)
      ((r.kind.elim [] fun letter => [letter, ':']) ++ scopes.flatMap (· ++ ['.']) ++ scope) r.shown

variable {r : SymbolReference}

theorem Ok.isValue (h : r.Ok) : IsValue r.text where
  no_quote := by
    have hscopes : '"' ∉ r.scopes.flatMap (· ++ ['.']) := by
      intro hmem
      obtain ⟨scope, hscope, hin⟩ := List.mem_flatMap.mp hmem
      rcases List.mem_append.mp hin with hin | hin
      · exact (h.scopes scope hscope _ hin).2.2.2.1 rfl
      · simp at hin
    have hkind : '"' ∉ r.kind.elim [] fun letter => [letter, ':'] := by
      cases hletter : r.kind with
      | none => simp
      | some letter =>
        have hne : '"' ≠ letter := fun heq => h.kind (heq ▸ hletter)
        simpa using hne
    simp only [text, List.mem_append, not_or]
    exact ⟨⟨hkind, hscopes⟩, fun hname => (h.name _ hname).2.2.2.1 rfl, h.parameters⟩
  no_sign := by
    have hne : r.name ++ r.parameterList ≠ [] := List.append_ne_nil_of_left_ne_nil h.named _
    rw [text, List.getLast?_append_of_ne_nil _ hne, parameterList]
    cases r.parameters with
    | none =>
      rw [Option.elim_none, List.append_nil]
      exact fun hlast => (h.name _ (List.mem_of_getLast? hlast)).2.2.2.2 rfl
    | some inside =>
      rw [Option.elim_some, List.getLast?_append_of_ne_nil _ (List.cons_ne_nil _ _), ← List.cons_append,
        List.getLast?_concat]
      decide

end SymbolReference

section Contribution

variable {f : TagForm} {r : SymbolReference}

/-- A reference leaves the end of its name with parameters, which is all of it unless a point or a colon stands
among the parameters. -/
theorem tagText_reference (hf : f.Ok) (hr : r.Ok) :
    tagText (f.text "cref" r.text) = (if f.Tight then endOf r.shown else [' ']) ∧
      (tagText (f.text "cref" r.text) = r.shown ↔ f.Tight ∧ ∀ c ∈ r.parameterList, c ≠ '.' ∧ c ≠ ':') := by
  have hleft := tagText_text hf hr.isValue (.inl rfl)
  rw [SymbolReference.endOf_text] at hleft
  refine ⟨hleft, ?_⟩
  rw [hleft]
  by_cases htight : f.Tight
  · rw [if_pos htight, endOf, List.rtakeWhile_eq_self_iff, SymbolReference.shown, List.forall_mem_append]
    simp only [bne_iff_ne, Bool.and_eq_true]
    have hname : ∀ c ∈ r.name, c ≠ '.' ∧ c ≠ ':' := fun c hc => ⟨(hr.name c hc).2.1, (hr.name c hc).2.2.1⟩
    exact ⟨fun h => ⟨htight, h.2⟩, fun h => ⟨hname, h.2⟩⟩
  · rw [if_neg htight]
    refine iff_of_false (fun hblank => ?_) fun h => htight h.1
    obtain ⟨c, name, hname⟩ := List.exists_cons_of_ne_nil hr.named
    rw [SymbolReference.shown, hname] at hblank
    have hc := (hr.name c (hname ▸ List.mem_cons_self)).1
    rw [← (List.cons.inj hblank).1] at hc
    exact absurd hc (by decide)

theorem tagText_word (hf : f.Ok) {word : List Char} (hword : ∀ c ∈ word, IsNamePart c) :
    tagText (f.text "langword" word) = word ↔ f.Tight := by
  have hvalue : IsValue word :=
    ⟨fun hmem => (hword _ hmem).2.2.2.1 rfl, fun hlast => (hword _ (List.mem_of_getLast? hlast)).2.2.2.2 rfl⟩
  rw [tagText_text hf hvalue (.inr rfl)]
  split
  · rename_i htight
    refine iff_of_true (List.rtakeWhile_eq_self_iff.mpr fun c hc => ?_) htight
    obtain ⟨-, hpoint, hcolon, -⟩ := hword c hc
    simp [hpoint, hcolon]
  · rename_i hloose
    refine iff_of_false (fun hblank => ?_) hloose
    exact absurd (hword ' ' (hblank ▸ List.mem_cons_self)).1 (by decide)

/-- The key with a value in quotation marks stands somewhere in a tag. -/
def Carries (key : String) (tag : List Char) : Prop :=
  ∃ front value rest, tag = front ++ ((key.toList ++ ['=', '"']) ++ (value ++ '"' :: rest))

theorem tagAttribute?_of_not_carries {key : String} {tag : List Char} (h : ¬Carries key tag) :
    tagAttribute? key tag = none := by
  rw [tagAttribute?, toList_sign]
  split
  · rename_i front behind hcut
    split
    · rename_i hquote
      obtain ⟨value, rest, rfl⟩ := List.append_of_mem (List.contains_iff_mem.mp hquote)
      exact absurd ⟨front, value, rest, Text.cutAt?_eq_some hcut⟩ h
    · rfl
  · rfl

theorem tagText_of_not_carries {tag : List Char} (hcref : ¬Carries "cref" tag) (hword : ¬Carries "langword" tag) :
    tagText tag = [' '] := by
  rw [tagText, tagAttribute?_of_not_carries hcref, tagAttribute?_of_not_carries hword]
  rfl

end Contribution

/-! ## Summaries -/

/-- The summary of a documentation text, or of its only element for a summary, is what its pieces leave, with
single spaces, if that is more than blanks. A reference to a symbol leaves its name with the parameters, as they
are written, exactly when no point or colon stands among these; otherwise it leaves what follows the last of
them. A word of the language leaves itself, and a tag without either attribute a blank. Blanks around the
equality sign hide an attribute. -/
theorem docSummary_shows_pieces (body before after : List Markup) (start stop : List Char)
    (hbody : ∀ m ∈ body, m.Ordinary) (hbefore : ∀ m ∈ before, m.Ordinary)
    (hstart : (Markup.tag start).IsTagOf "summary") (hstop : (Markup.tag stop).IsTagOf "/summary") :
    docSummary (String.ofList (body.flatMap Markup.source)) = collapsed? (body.flatMap Markup.shown) ∧
      docSummary (String.ofList ((before ++ .tag start :: (body ++ .tag stop :: after)).flatMap Markup.source)) =
        collapsed? (body.flatMap Markup.shown) ∧
      (collapsed? (body.flatMap Markup.shown) = none ↔ ∀ c ∈ body.flatMap Markup.shown, Text.isBlank c = true) ∧
      (∀ f r, TagForm.Ok f → SymbolReference.Ok r →
        tagText (f.text "cref" r.text) = (if f.Tight then endOf r.shown else [' ']) ∧
          (tagText (f.text "cref" r.text) = r.shown ↔ f.Tight ∧ ∀ c ∈ r.parameterList, c ≠ '.' ∧ c ≠ ':')) ∧
      (∀ f word, TagForm.Ok f → (∀ c ∈ word, IsNamePart c) →
        (tagText (f.text "langword" word) = word ↔ f.Tight)) ∧
      ∀ tag, ¬Carries "cref" tag → ¬Carries "langword" tag → tagText tag = [' '] := by
  have hwhole : ∀ m ∈ body, m.Whole := fun m hm => (hbody m hm).toWhole
  refine ⟨docSummary_eq hwhole (summaryBody_source hbody),
    docSummary_eq hwhole (summaryBody_element hbefore hbody hstart hstop), collapsed?_eq_none_iff, ?_, ?_, ?_⟩
  · exact fun _ _ => tagText_reference
  · exact fun _ _ hf hword => tagText_word hf hword
  · exact fun _ => tagText_of_not_carries

namespace Qualified

def form : TagForm :=
  ⟨"see ".toList, [], [], ['/']⟩

/-- A method whose parameter is written with its namespace. -/
def method : SymbolReference :=
  ⟨some 'M', [['N'], ['C']], ['F'], some "System.Int32".toList⟩

def body : List Markup :=
  [.plain "Calls ".toList, .tag (form.text "cref" method.text), .plain " twice".toList]

end Qualified

/-- The name of the method and the beginning of its parameters are lost. -/
theorem docSummary_shows_pieces_qualified :
    docSummary "Calls <see cref=\"M:N.C.F(System.Int32)\"/> twice" = some "Calls Int32) twice" ∧
      docSummary "<summary>Calls <see cref=\"M:N.C.F(System.Int32)\"/> twice</summary>" =
        some "Calls Int32) twice" ∧
      Qualified.method.shown = "F(System.Int32)".toList ∧
      tagText (Qualified.form.text "cref" Qualified.method.text) ≠ Qualified.method.shown := by
  obtain ⟨hwhole, helement, -, href, -⟩ := docSummary_shows_pieces Qualified.body [] [] "summary".toList
    "/summary".toList (by decide +kernel) (by simp) (by decide) (by decide)
  have hshown : collapsed? (Qualified.body.flatMap Markup.shown) = some "Calls Int32) twice" := by decide +kernel
  have hform : Qualified.form.Ok := ⟨by decide, by simp [Qualified.form], by simp [Qualified.form], by decide, by decide⟩
  have hparts : IsNamePart 'N' ∧ IsNamePart 'C' ∧ IsNamePart 'F' := by decide
  have hmethod : Qualified.method.Ok :=
    ⟨by decide, by simp [Qualified.method, hparts], by decide, by simp [Qualified.method, hparts], by decide +kernel⟩
  refine ⟨?_, ?_, by decide, fun hsame => ?_⟩
  · rw [← hshown, ← hwhole]
    rfl
  · rw [← hshown, ← helement]
    rfl
  · obtain ⟨-, hplain⟩ := (href Qualified.form Qualified.method hform hmethod).2.mp hsame
    exact absurd (hplain '.' (by decide +kernel)).1 (by decide)

end SolutionAtlas.CSharp
