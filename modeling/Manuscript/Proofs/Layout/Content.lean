/-
This file proves that layout loses nothing, repeats nothing and changes no order. What a
line of the manuscript says on the page is its rendered text. Indents, padding and line
ends only add white space to it, and breaking it only takes spaces away, so the document
without its white space is the rendered texts without theirs. No physical line is wider
than the page, and none has a line feed in it, because the words of a line are divided by
single spaces and nothing that is put around them could end a line.
-/

import Mathlib.Tactic.Common
import Manuscript.Proofs.Compiler.Division
import Manuscript.Proofs.Layout.Wrap

namespace Manuscript

namespace Text

/-! ### Emphasis marks behind an indent -/

theorem dropPairs_cons {character : Char} (other : character ≠ '_') (rest : Text) :
    dropPairs (character :: rest) = character :: dropPairs rest := by
  rw [dropPairs]
  exact fun _ same => absurd same other

theorem dropPairs_sublist (text : Text) : (dropPairs text).Sublist text := by
  fun_induction dropPairs text with
  | case1 rest inductionHypothesis => exact (inductionHypothesis.cons _).cons _
  | case2 character rest _ inductionHypothesis => exact inductionHypothesis.cons_cons _
  | case3 => exact List.Sublist.slnil

end Text

namespace Tag

theorem mem_of_mem_strip {tag : Tag} {line : Text} {character : Char}
    (member : character ∈ tag.strip line) : character ∈ line := by
  have trimmed {text : Text} (inside : character ∈ Text.trim text) : character ∈ text :=
    (Text.trim_sublist text).mem inside
  have behindWord : character ∈ Text.trim ((tag.restAfter? (Text.trim line)).getD (Text.trim line)) →
      character ∈ line := by
    intro inside
    refine trimmed ?_
    rw [restAfter?] at inside
    split at inside
    · exact List.mem_of_mem_drop (trimmed inside)
    · exact trimmed inside
  cases tag with
  | sectionBreak => exact trimmed member
  | author | chapter | sectionTag | title => exact behindWord member

end Tag

namespace Layout

/-! ### What a line says -/

/-- What a line of the manuscript says on the page, from the line as it is written, what is
visible of it, and its kind. Indents and padding are no part of it. -/
def renderedText (raw visible : Text) (line : LineKind) : Text :=
  if raw.isBlank || visible.isBlank then []
  else
    match line with
    | .blank => []
    | .tagged tag =>
      (if tag = .author then "by".toList else []) ++ tag.strip (Text.tidy visible)
    | .prose => stripEmphasis (Text.tidy visible)

theorem stripEmphasis_cons {character : Char} (noPair : character ≠ '_') (noMark : character ≠ '*')
    (rest : Text) : stripEmphasis (character :: rest) = character :: stripEmphasis rest := by
  rw [stripEmphasis, Text.dropPairs_cons noPair, List.filter_cons, if_pos (decide_eq_true noMark),
    stripEmphasis]

/-- White space in front of a line is not touched when the marks are taken out of it. -/
theorem stripEmphasis_append {front : Text} (blank : front.isBlank = true) (line : Text) :
    stripEmphasis (front ++ line) = front ++ stripEmphasis line := by
  induction front with
  | nil => rfl
  | cons character front inductionHypothesis =>
    have spaces := (Text.isBlank_iff _).mp blank
    have here : isSpace character = true := spaces character List.mem_cons_self
    have behind : Text.isBlank front = true :=
      (Text.isBlank_iff _).mpr fun other member => spaces other (List.mem_cons_of_mem _ member)
    have noPair : character ≠ '_' := by
      rintro rfl
      exact absurd here (by decide)
    have noMark : character ≠ '*' := by
      rintro rfl
      exact absurd here (by decide)
    rw [List.cons_append, stripEmphasis_cons noPair noMark, inductionHypothesis behind,
      List.cons_append]

theorem stripEmphasis_sublist (line : Text) : (stripEmphasis line).Sublist line :=
  List.filter_sublist.trans (Text.dropPairs_sublist line)

/-! ### Indents -/

theorem eq_of_mem_firstCharacters {options : Options} {place : ParagraphPlace} {character : Char}
    (member : character ∈ firstCharacters options place) : character = '\t' ∨ character = ' ' := by
  rw [firstCharacters] at member
  split at member
  · cases indent : options.indent with
    | tab =>
      rw [indent] at member
      exact Or.inl (List.mem_singleton.mp member)
    | spaces count =>
      rw [indent] at member
      exact Or.inr (List.eq_of_mem_replicate member)
  · cases member

theorem isBlank_firstCharacters (options : Options) (place : ParagraphPlace) :
    Text.isBlank (firstCharacters options place) = true := by
  refine (Text.isBlank_iff _).mpr fun character member => ?_
  rcases eq_of_mem_firstCharacters member with rfl | rfl <;> rfl

theorem renderProse_eq (options : Options) (context : Context) (words : Text) :
    renderProse options context words =
      firstCharacters options (.ofContext context) ++ stripEmphasis words := by
  rw [renderProse, stripEmphasis_append (isBlank_firstCharacters _ _)]

/-! ### Texts without line feeds -/

theorem no_feed_tidy (visible : Text) : '\n' ∉ Text.tidy visible := by
  intro member
  exact absurd (Text.eq_space_of_mem_tidy member rfl) (by decide)

theorem no_feed_renderTag (tag : Tag) {words : Text} (noFeed : '\n' ∉ words) :
    '\n' ∉ renderTag tag words := by
  have stripped : '\n' ∉ tag.strip words := fun member => noFeed (Tag.mem_of_mem_strip member)
  cases tag with
  | author =>
    simp only [renderTag]
    split
    · decide
    · intro member
      rcases List.mem_append.mp member with front | behind
      · exact absurd front (by decide)
      · exact stripped behind
  | chapter | sectionTag | title | sectionBreak => exact stripped

theorem no_feed_renderProse (options : Options) (context : Context) {words : Text}
    (noFeed : '\n' ∉ words) : '\n' ∉ renderProse options context words := by
  rw [renderProse_eq]
  intro member
  rcases List.mem_append.mp member with front | behind
  · rcases eq_of_mem_firstCharacters front with feed | feed <;> exact absurd feed (by decide)
  · exact noFeed ((stripEmphasis_sublist words).mem behind)

/-! ### Physical lines that hold a text -/

/-- Physical lines hold a text where they are made of its characters in their order and of
white space, fit the page and end only where they are ended. -/
structure Holds (text : Text) (lines : List Text) : Prop where
  ink : lines.flatMap Text.ink = Text.ink text
  narrow : ∀ line ∈ lines, line.length ≤ pageWidth
  noFeed : ∀ line ∈ lines, '\n' ∉ line

theorem holds_nil : Holds [] [] where
  ink := rfl
  narrow _ member := absurd member List.not_mem_nil
  noFeed _ member := absurd member List.not_mem_nil

theorem holds_empty : Holds [] [[]] where
  ink := rfl
  narrow line member := by
    rw [List.mem_singleton.mp member]
    exact Nat.zero_le pageWidth
  noFeed line member := by
    rw [List.mem_singleton.mp member]
    exact List.not_mem_nil

/-- What comes first on the page was said first. -/
theorem Holds.append {first second : Text} {above below : List Text} (one : Holds first above)
    (other : Holds second below) : Holds (first ++ second) (above ++ below) where
  ink := by rw [List.flatMap_append, one.ink, other.ink, Text.ink_append]
  narrow line member := (List.mem_append.mp member).elim (one.narrow line) (other.narrow line)
  noFeed line member := (List.mem_append.mp member).elim (one.noFeed line) (other.noFeed line)

/-- Only what is not white space counts. -/
theorem Holds.of_ink_eq {text other : Text} {lines : List Text} (holds : Holds text lines)
    (same : Text.ink text = Text.ink other) : Holds other lines :=
  ⟨holds.ink.trans same, holds.narrow, holds.noFeed⟩

theorem Holds.padded {text : Text} {lines : List Text} (holds : Holds text lines) (count : Nat) :
    Holds text (List.replicate count [] ++ lines) := by
  induction count with
  | zero => exact holds
  | succ count inductionHypothesis =>
    rw [List.replicate_succ, List.cons_append]
    exact holds_empty.append inductionHypothesis

theorem holds_wrap {text : Text} (noFeed : '\n' ∉ text) : Holds text (wrap pageWidth text) where
  ink := ink_wrap pageWidth text
  narrow _ member := length_of_mem_wrap member
  noFeed _ member feed := noFeed ((infix_of_mem_wrap member).subset feed)

/-- Double spacing adds nothing but empty lines. -/
theorem mem_or_eq_nil_of_mem_spaced {options : Options} {line : Text} {lines : List Text}
    (member : line ∈ spaced options lines) : line ∈ lines ∨ line = [] := by
  rw [spaced] at member
  split at member
  · obtain ⟨original, inside, here⟩ := List.mem_flatMap.mp member
    rcases List.mem_cons.mp here with rfl | empty
    · exact Or.inl inside
    · exact Or.inr (List.mem_singleton.mp empty)
  · exact Or.inl member

theorem Holds.spaced {text : Text} {lines : List Text} (holds : Holds text lines)
    (options : Options) : Holds text (spaced options lines) where
  ink := by
    rw [Layout.spaced, ← holds.ink]
    split
    · have single (line : Text) : [line, []].flatMap Text.ink = Text.ink line := List.append_nil _
      rw [List.flatMap_assoc]
      simp only [single]
    · rfl
  narrow line member := by
    rcases mem_or_eq_nil_of_mem_spaced member with inside | rfl
    · exact holds.narrow line inside
    · exact Nat.zero_le pageWidth
  noFeed line member := by
    rcases mem_or_eq_nil_of_mem_spaced member with inside | rfl
    · exact holds.noFeed line inside
    · exact List.not_mem_nil

theorem holds_typeset (options : Options) {text : Text} (noFeed : '\n' ∉ text) :
    Holds text (typeset options text) :=
  (holds_wrap noFeed).spaced options

/-! ### The physical lines of a line -/

theorem holds_blankLines (options : Options) (context : Context) :
    Holds [] (blankLines options context) := by
  rw [blankLines]
  split
  · exact holds_empty
  · exact holds_nil

theorem ink_renderTag (tag : Tag) (words : Text) :
    Text.ink (renderTag tag words) =
      Text.ink ((if tag = .author then "by".toList else []) ++ tag.strip words) := by
  cases tag with
  | author =>
    simp only [renderTag, if_true]
    split
    · rename_i empty
      rw [List.isEmpty_iff.mp empty, List.append_nil]
    · rw [Text.ink_append, Text.ink_append]
      rfl
  | chapter | sectionTag | title | sectionBreak => rfl

theorem ink_renderProse (options : Options) (context : Context) (words : Text) :
    Text.ink (renderProse options context words) = Text.ink (stripEmphasis words) := by
  rw [renderProse_eq, Text.ink_append,
    Text.ink_eq_nil_of_isBlank (isBlank_firstCharacters _ _), List.nil_append]

/-- A tag of which nothing is left has no physical lines but its padding. -/
theorem holds_tag (options : Options) (tag : Tag) {words : Text} (noFeed : '\n' ∉ words) :
    Holds (renderTag tag words)
      (if (renderTag tag words).isEmpty then [] else typeset options (renderTag tag words)) := by
  split
  · rename_i empty
    rw [List.isEmpty_iff.mp empty]
    exact holds_nil
  · exact holds_typeset options (no_feed_renderTag tag noFeed)

/-- A line of which nothing is visible leaves at most an empty line. -/
theorem holds_linesOf_of_isBlank (options : Options) (context : Context) {visible : Text}
    (hidden : visible.isBlank = true) : Holds [] (linesOf options context visible) := by
  by_cases blank : context.line = .blank
  · rw [linesOf, blank]
    exact holds_blankLines options context
  · rw [linesOf_of_isBlank options context blank hidden]
    exact holds_nil

/-- The physical lines of a line hold what it says. -/
theorem holds_linesOf (options : Options) (context : Context) (raw visible : Text) :
    Holds (renderedText raw visible (context.advance raw).line)
      (linesOf options (context.advance raw) visible) := by
  have noFeed := no_feed_tidy visible
  unfold renderedText
  by_cases blank : raw.isBlank = true
  · have line : (context.advance raw).line = .blank := Context.classify_of_isBlank _ blank
    rw [if_pos (by rw [blank, Bool.true_or]), linesOf, line]
    exact holds_blankLines _ _
  by_cases hidden : visible.isBlank = true
  · rw [if_pos (by rw [hidden, Bool.or_true])]
    exact holds_linesOf_of_isBlank options _ hidden
  have words : ¬(Text.tidy visible).isEmpty = true := by
    rw [List.isEmpty_iff, Text.tidy_eq_nil_iff]
    exact hidden
  rw [if_neg (by rw [Bool.or_eq_true]; exact not_or.mpr ⟨blank, hidden⟩), linesOf]
  cases (context.advance raw).line with
  | blank => exact holds_blankLines _ _
  | tagged tag =>
    simp only [if_neg words]
    exact ((holds_tag options tag noFeed).padded _).of_ink_eq (ink_renderTag tag _)
  | prose =>
    have prose := holds_typeset options (no_feed_renderProse options (context.advance raw) noFeed)
    simp only [if_neg words]
    exact (prose.padded _).of_ink_eq (ink_renderProse options _ _)

end Layout

/-! ### A whole manuscript -/

namespace Compiler

/-- What lines say on the page, one after another. -/
def rendered : Compiler → List Text → List Text
  | _, [] => []
  | compiler, raw :: rest =>
    Layout.renderedText raw (compiler.visible raw) (compiler.advance raw).context.line ::
      rendered (compiler.advance raw) rest

/-- The physical lines of some lines hold what the lines say. -/
theorem holds_layOutAll (compiler : Compiler) (lines : List Text) :
    Layout.Holds (compiler.rendered lines).flatten (compiler.layOutAll lines) := by
  induction lines generalizing compiler with
  | nil => exact Layout.holds_nil
  | cons raw rest inductionHypothesis =>
    rw [rendered, layOutAll, List.flatten_cons]
    have here := Layout.holds_linesOf compiler.options compiler.context raw (compiler.visible raw)
    exact here.append (inductionHypothesis (compiler.advance raw))

end Compiler

namespace Text

theorem ink_unlines (lines : List Text) : ink (unlines lines) = lines.flatMap ink := by
  induction lines with
  | nil => rfl
  | cons line lines inductionHypothesis =>
    rw [unlines_cons, ink_append, List.flatMap_cons, ← inductionHypothesis]
    rfl

end Text

/-- A document is empty or ends its last line, has no line wider than the page, and holds,
but for white space, the rendered texts of the lines of the manuscript in their order, each
once and nothing else. -/
theorem compiled_holds_rendered (options : Options) (source : Text) :
    (compiled options source = [] ∨ (compiled options source).getLast? = some '\n') ∧
      (∀ line ∈ (compiled options source).splitOn '\n', line.length ≤ 80) ∧
      Text.ink (compiled options source) =
        ((Compiler.new options .none).begin.rendered (Text.lines source)).flatMap Text.ink := by
  have holds := (Compiler.new options .none).begin.holds_layOutAll (Text.lines source)
  rw [← written_compileText] at holds
  refine ⟨Text.unlines_ends _, fun line member => ?_, ?_⟩
  · rw [compiled, Text.splitOn_unlines holds.noFeed] at member
    rcases List.mem_append.mp member with inside | last
    · exact holds.narrow line inside
    · rw [List.mem_singleton.mp last]
      exact Nat.zero_le 80
  · rw [compiled, Text.ink_unlines, holds.ink, Text.ink_flatten]

end Manuscript
