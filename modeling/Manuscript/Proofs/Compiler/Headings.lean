/-
This file says what a line with a tag says on the page. The tag is found in the line as it is
written, in any case and with whatever is hidden still in it, but its word is taken off only
what is left of the line once that is hidden and the white space is in order. The two agree:
no character of a word has a part in hiding anything, so a line on which text is visible keeps
the word, and the word comes off again whole, whatever stands right behind it. What is left is
what would be left of the rest of the line alone.
-/

import Manuscript.Proofs.Compiler.Run
import Manuscript.Proofs.Tag.Recognition
import Manuscript.Proofs.Text.Tidy

namespace Manuscript

namespace Tag

/-! ### The word of a tag in a line -/

/-- The word of a tag, in any case, has no white space in it and no part in any mark. -/
theorem plain_of_lowerAscii {tag : Tag} {word : Text} (same : Text.lowerAscii word = tag.literal)
    {letter : Char} (member : letter ∈ word) :
    isSpace letter = false ∧
      letter ≠ '#' ∧ letter ≠ '[' ∧ letter ≠ ']' ∧ letter ≠ '\\' := by
  have inside : letter.toLower ∈ tag.literal := same ▸ List.mem_map_of_mem member
  obtain ⟨noHash, noOpen, noClose, noSlash⟩ : '#' ∉ tag.literal ∧ '[' ∉ tag.literal ∧
      ']' ∉ tag.literal ∧ '\\' ∉ tag.literal := by
    cases tag <;> decide
  refine ⟨Bool.eq_false_iff.mpr fun space => ?_, ?_, ?_, ?_, ?_⟩
  · have solid := isSpace_of_mem_literal tag _ inside
    rw [toLower_of_isSpace space, space] at solid
    cases solid
  · rintro rfl
    exact noHash inside
  · rintro rfl
    exact noOpen inside
  · rintro rfl
    exact noClose inside
  · rintro rfl
    exact noSlash inside

theorem ne_nil_of_lowerAscii {tag : Tag} {word : Text}
    (same : Text.lowerAscii word = tag.literal) : word ≠ [] := by
  rintro rfl
  cases tag <;> cases same

/-- Taken off the words of a line, the word of a tag leaves the words of what follows it. -/
theorem strip_tidy_append {tag : Tag} (isWord : tag ≠ .sectionBreak) {word : Text}
    (same : Text.lowerAscii word = tag.literal) (rest : Text) :
    tag.strip (Text.tidy (word ++ rest)) = Text.tidy rest := by
  obtain ⟨gap, blank, words⟩ := Text.exists_tidy_append (ne_nil_of_lowerAscii same)
    (fun letter member => (plain_of_lowerAscii same member).1) rest
  have taken : tag.restAfter? (word ++ (gap ++ Text.tidy rest)) = some (gap ++ Text.tidy rest) :=
    (restAfter?_eq_some_iff _ _ _).mpr ⟨word, rfl, same⟩
  have stripped : tag.strip (Text.tidy (word ++ rest)) = Text.trim (gap ++ Text.tidy rest) := by
    have trimmed := Text.trim_tidy (word ++ rest)
    rw [words] at trimmed
    rw [words]
    cases tag with
    | sectionBreak => exact absurd rfl isWord
    | author | chapter | sectionTag | title => simp only [strip, trimmed, taken, Option.getD_some]
  have spaces := (Text.trimStart_eq_nil_iff gap).mpr blank
  rw [stripped, Text.trim, Text.trimStart, List.dropWhile_append, ← Text.trimStart, spaces,
    List.isEmpty_nil, if_pos rfl]
  exact Text.trim_tidy rest

/-- What a line that declares a tag says, from the words that follow the tag's own. -/
def saying : Tag → Text → Text
  | sectionBreak, _ => "---".toList
  | author, words => if words.isEmpty then "by".toList else "by ".toList ++ words
  | chapter, words | sectionTag, words | title, words => words

end Tag

namespace Layout

theorem renderTag_tidy_append {tag : Tag} (isWord : tag ≠ .sectionBreak) {word : Text}
    (same : Text.lowerAscii word = tag.literal) (rest : Text) :
    renderTag tag (Text.tidy (word ++ rest)) = tag.saying (Text.tidy rest) := by
  have taken := Tag.strip_tidy_append isWord same rest
  cases tag with
  | sectionBreak => exact absurd rfl isWord
  | author | chapter | sectionTag | title => simp only [renderTag, taken, Tag.saying]

end Layout

namespace Block

/-- Nothing of the word of a tag is hidden where text is visible. -/
theorem strip_word {tag : Tag} {word : Text} (same : Text.lowerAscii word = tag.literal)
    (rest : Text) : (visible.strip (word ++ rest)).1 = word ++ (visible.strip rest).1 := by
  rw [strip_append_of_plain visible fun _ member => (Tag.plain_of_lowerAscii same member).2]
  rfl

/-- Nothing of a section break is hidden where text is visible. -/
theorem strip_rule {raw : Text} (rule : Text.trim raw = Tag.sectionBreak.literal) :
    (visible.strip raw).1 = raw := by
  rw [strip_plain]
  · exact List.append_nil raw
  · intro character member
    rcases (isRule_iff _).mp (isRule_of_trim_eq rule character member) with space | rfl
    · refine ⟨?_, ?_, ?_⟩ <;> rintro rfl <;> exact absurd space (by decide)
    · decide

end Block

namespace Context

/-- A tag is declared by a line that is not blank and that the tag is found in. -/
theorem detect?_of_tagged (context : Context) {raw : Text} {tag : Tag}
    (tagged : (context.advance raw).line = .tagged tag) : Tag.detect? raw = some tag := by
  have line : classify context.line raw = .tagged tag := tagged
  rw [classify_eq] at line
  split at line
  · cases line
  · split at line
    · cases line
    · cases found : Tag.detect? raw with
      | none => rw [found] at line; cases line
      | some other => rw [found] at line; rw [LineKind.tagged.inj line]

end Context

namespace Layout

/-- A line with a tag on which something is visible is laid out as what the tag says. -/
theorem linesOf_of_tagged (options : Options) {context : Context} {visible : Text} {tag : Tag}
    (tagged : context.line = .tagged tag) (solid : Text.tidy visible ≠ []) :
    linesOf options context visible =
      List.replicate (paddingOfTag tag) [] ++
        if (renderTag tag (Text.tidy visible)).isEmpty then []
        else typeset options (renderTag tag (Text.tidy visible)) := by
  rw [linesOf, tagged]
  simp only [List.isEmpty_iff, if_neg solid]

/-- Where text is visible, a line says what is visible of it behind the word of the tag that it
declares, and it is not without words. -/
theorem renderTag_visible {raw : Text} {tag : Tag} (found : Tag.detect? raw = some tag) :
    ∃ rest, (tag ≠ .sectionBreak → tag.restAfter? raw = some rest) ∧
      renderTag tag (Text.tidy (Block.visible.strip raw).1) =
        tag.saying (Text.tidy (Block.visible.strip rest).1) ∧
      Text.tidy (Block.visible.strip raw).1 ≠ [] := by
  have fits := (Tag.detect?_eq_some_iff raw tag).mp found
  by_cases isWord : tag = .sectionBreak
  · subst isWord
    have rule : Text.trim raw = Tag.sectionBreak.literal := beq_iff_eq.mp fits
    have words : Text.tidy raw = Tag.sectionBreak.literal := by
      rw [Text.tidy, rule]
      rfl
    rw [Block.strip_rule rule, words]
    exact ⟨[], absurd rfl, rfl, by decide⟩
  · have some : (tag.restAfter? raw).isSome = true := by
      cases tag with
      | sectionBreak => exact absurd rfl isWord
      | author | chapter | sectionTag | title => exact fits
    obtain ⟨rest, behind⟩ := Option.isSome_iff_exists.mp some
    obtain ⟨word, rfl, same⟩ := (Tag.restAfter?_eq_some_iff _ _ _).mp behind
    rw [Block.strip_word same]
    refine ⟨rest, fun _ => behind, renderTag_tidy_append isWord same _, ?_⟩
    obtain ⟨gap, _, words⟩ := Text.exists_tidy_append (Tag.ne_nil_of_lowerAscii same)
      (fun letter member => (Tag.plain_of_lowerAscii same member).1) (Block.visible.strip rest).1
    rw [words]
    exact List.append_ne_nil_of_left_ne_nil (Tag.ne_nil_of_lowerAscii same) _

end Layout

namespace Compiler

/-- What a tag says is what follows it. At any line of a file at whose beginning text is visible
and that declares a tag, the text of the line is what is visible of the line behind the tag's
word as if that stood alone, its white space in order: with a `by` in front for an author, and
nothing but its hyphens for a section break. The page has this text behind the padding of the
tag, which is there even if the text is empty, and all of it behind what the lines before have
written. -/
theorem tag_says_what_follows (compiler : Compiler) (source : Path) (before : List Text)
    (raw : Text) (behind : List (Option Text)) (tag : Tag) :
    let here := compiler.begin.advanceAll before
    here.block = .visible → (here.advance raw).context.line = .tagged tag →
      ∃ rest, (tag ≠ .sectionBreak → tag.restAfter? raw = some rest) ∧
        let text := tag.saying (Text.tidy (Block.visible.strip rest).1)
        Layout.renderTag tag (Text.tidy (here.visible raw)) = text ∧
          (compiler.compileLines source (before.map some ++ some raw :: behind)).written =
            (compiler.compileLines source (before.map some)).written ++
              (List.replicate (Layout.paddingOfTag tag) [] ++
                if text.isEmpty then [] else Layout.typeset compiler.options text) ++
              (here.advance raw).layOutAll (readable behind) := by
  intro here visible tagged
  obtain ⟨rest, word, spoken, solid⟩ :=
    Layout.renderTag_visible (Context.detect?_of_tagged here.context tagged)
  have shown : here.visible raw = (Block.visible.strip raw).1 := by
    rw [Compiler.visible, visible]
  have options : here.options = compiler.options := options_advanceAll compiler.begin before
  rw [← shown] at spoken solid
  have lines : here.layOut raw = _ := Layout.linesOf_of_tagged here.options tagged solid
  rw [spoken, options] at lines
  refine ⟨rest, word, spoken, ?_⟩
  rw [written_compileLines, written_compileLines, readable_map_some_append, readable_map_some,
    layOutAll_append, readable, layOutAll, lines]
  exact (List.append_assoc _ _ _).symm

/-- A chapter's name with a comment on each side, a bracket right behind the word and an escaped
one further on. The two empty lines of a chapter are in front of it, and they are there also where
an aside is all that follows the word. -/
theorem tag_says_what_follows_beside_asides :
    let compiler := new .standard .none
    let before := ["Title: x", ""].map String.toList
    let raw := "CHAPTER:[a]### b ###One  \\[ two ## z".toList
    let nameless := "chapter: [b]".toList
    let here := compiler.begin.advanceAll before
    let written (lines : List Text) :=
      (compiler.compileLines unnamedSource (lines.map some)).written
    here.block = .visible ∧ (here.advance raw).context.line = .tagged .chapter ∧
      Layout.renderTag .chapter (Text.tidy (here.visible raw)) = "One \\[ two".toList ∧
      (∃ rest, Tag.chapter.restAfter? raw = some rest ∧
        Text.tidy (Block.visible.strip rest).1 = "One \\[ two".toList) ∧
      written (before ++ [raw]) = written before ++ [[], [], "One \\[ two".toList] ∧
      (here.advance nameless).context.line = .tagged .chapter ∧
      Layout.renderTag .chapter (Text.tidy (here.visible nameless)) = [] ∧
      written (before ++ [nameless]) = written before ++ [[], []] := by
  intro compiler before raw nameless here written
  have visible : here.block = .visible := by decide +kernel
  have tagged : (here.advance raw).context.line = .tagged .chapter := by decide +kernel
  have taggedToo : (here.advance nameless).context.line = .tagged .chapter := by decide +kernel
  have rendered : Layout.renderTag .chapter (Text.tidy (here.visible raw)) =
      "One \\[ two".toList := by decide +kernel
  have empty : Layout.renderTag .chapter (Text.tidy (here.visible nameless)) = [] := by
    decide +kernel
  have page {line text : Text} (tagged : (here.advance line).context.line = .tagged .chapter)
      (rendered : Layout.renderTag .chapter (Text.tidy (here.visible line)) = text) :
      ∃ rest, Tag.chapter.restAfter? line = some rest ∧
        Text.tidy (Block.visible.strip rest).1 = text ∧
        written (before ++ [line]) = written before ++
          ([[], []] ++ if text.isEmpty then [] else Layout.typeset .standard text) := by
    obtain ⟨rest, word, same, lines⟩ :=
      tag_says_what_follows compiler unnamedSource before line [] .chapter visible tagged
    have said : Text.tidy (Block.visible.strip rest).1 = text := same.symm.trans rendered
    refine ⟨rest, word (by decide), said, ?_⟩
    rw [← same, rendered] at lines
    simp only [written, List.map_append, List.map_cons, List.map_nil]
    exact lines.trans (List.append_nil _)
  obtain ⟨rest, word, said, lines⟩ := page tagged rendered
  obtain ⟨_, _, _, linesToo⟩ := page taggedToo empty
  refine ⟨visible, tagged, rendered, ⟨rest, word, said⟩, ?_, taggedToo, empty, linesToo⟩
  rw [lines]
  exact congrArg (written before ++ ·) (by decide +kernel)

end Compiler

end Manuscript
