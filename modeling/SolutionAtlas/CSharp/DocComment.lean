-- SUMMARY: Text and summary of documentation comments.
import SolutionAtlas.Text.Lowercase
import SolutionAtlas.Text.Lines

/-!
# Documentation comments

`docText` strips the comment marks off the lines of a comment, and `docSummary` reads the summary
out of the marked-up text: tags disappear, except that a reference leaves the name it refers to.
-/

namespace SolutionAtlas.CSharp

/-- A line of a documentation comment without its mark, one space behind the mark, and trailing
blanks. -/
def docLine (line : List Char) : List Char :=
  let line := Text.trimStartChars line
  let line := (Text.dropLead? "///".toList line).getD line
  let line :=
    match line with
    | ' ' :: rest => rest
    | _ => line
  Text.trimEndChars line

/-- The text of a documentation comment, `none` when nothing is written in it. -/
def docText (comments : List String) : Option String :=
  let body := (comments.flatMap fun c => Text.linesChars c.toList).map docLine
  Text.nonBlank? ("\n".intercalate (body.map String.ofList))

/-- The value of an attribute in the text of a tag. -/
def tagAttribute? (key : String) (tag : List Char) : Option (List Char) :=
  match Text.cutAt? (key ++ "=\"").toList tag with
  | some (_, behind) => if behind.contains '"' then some (Text.beforeFirst '"' behind) else none
  | none => none

/-- What a tag leaves in the text: the name it refers to, or a blank. -/
def tagText (tag : List Char) : List Char :=
  match (tagAttribute? "cref" tag).or (tagAttribute? "langword" tag) with
  | some reference => Text.afterLast '.' (Text.afterLast ':' reference)
  | none => [' ']

/-- The text without its tags, whose number `fuel` bounds. A tag that does not end stays as it is. -/
def stripTags : Nat → List Char → List Char
  | 0, s => s
  | fuel + 1, s =>
    let shown := Text.beforeFirst '<' s
    match s.drop shown.length with
    | [] => shown
    | bracket :: behind =>
      if behind.contains '>' then
        let tag := Text.beforeFirst '>' behind
        shown ++ tagText tag ++ stripTags fuel (behind.drop (tag.length + 1))
      else shown ++ bracket :: behind

/-- The part of a documentation text that summarises: what the first `summary` element holds, or
all of the text when no such element is closed behind its opening. -/
def summaryBody (doc : List Char) : List Char :=
  let plain := doc.map Char.toLower
  match Text.find? "<summary>".toList plain, Text.find? "</summary>".toList plain with
  | some start, some stop =>
    if start < stop then (doc.take stop).drop (start + "<summary>".length) else doc
  | _, _ => doc

/-- The summary of a documentation text, without markup and with single spaces. -/
def docSummary (doc : String) : Option String :=
  let body := summaryBody doc.toList
  let text := Text.collapseBlanks (String.ofList (stripTags body.length body))
  if text.isEmpty then none else some text

end SolutionAtlas.CSharp
