/-
This file is about the white space in the physical lines of a text. A text is broken at a
space, which is dropped, behind a hyphen, or where it has neither; so its physical lines are
tidy exactly if the text is. What a tag says always is. The words of a line of prose are as
well, but two things are done to them afterwards. A word that is nothing but marks leaves the
spaces around it next to each other when its marks are taken out, or at an end of the line;
and an indent of several spaces is broken off where the text behind it has no place to break
at within the width. But for these two cases all physical lines are tidy behind the indent.
-/

import Manuscript.Proofs.Layout.LeftoverMarks
import Manuscript.Proofs.Layout.PhysicalLines
import Manuscript.Proofs.Layout.Spacing

namespace Manuscript.Layout

/-! ### Breaks of an even text -/

section Broken

variable {width : Nat} {front piece gap rest : Text}

/-- A space right behind what stays in front of a break is a place to break at. -/
theorem IsBreak.isPlace_of_space (isBreak : IsBreak width piece gap rest)
    (space : (gap ++ rest).head? = some ' ') :
    Break.IsPlace width (piece ++ gap ++ rest) piece.length := by
  refine ⟨List.length_pos_of_ne_nil isBreak.solid, Or.inl ⟨?_, isBreak.narrow⟩⟩
  rw [List.append_assoc, List.getElem?_append_right (Nat.le_refl _), Nat.sub_self,
    ← List.head?_eq_getElem?, space]

/-- Where nothing is dropped at a break, no space is left behind it. -/
theorem IsBreak.head?_rest (isBreak : IsBreak width piece [] rest) : rest.head? ≠ some ' ' := by
  intro space
  have before := isBreak.last _ (isBreak.isPlace_of_space space)
  rw [List.append_nil] at before
  exact absurd before (Nat.lt_irrefl _)

theorem getElem?_end (solid : piece ≠ []) (rest : Text) :
    (piece ++ [] ++ rest)[piece.length - 1]? = piece.getLast? := by
  have some_ := List.length_pos_of_ne_nil solid
  rw [List.append_nil, List.getElem?_append_left (by omega), List.getLast?_eq_getElem?]

/-- Where nothing is dropped at a break, no space is in front of it but at the beginning of the
line. -/
theorem IsBreak.getLast?_piece (isBreak : IsBreak width piece [] rest)
    (behindFirst : 1 < piece.length) : piece.getLast? ≠ some ' ' := by
  intro space
  rcases isBreak.dropped with same | ⟨_, hyphen | ⟨full, nowhere⟩⟩
  · cases same
  · rw [hyphen] at space
    exact absurd (Option.some.inj space) (by decide)
  · refine nowhere (piece.length - 1) ⟨by omega, Or.inl ⟨?_, by omega⟩⟩
    rw [getElem?_end isBreak.solid, space]

/-- A break divides a text into even ones if it is even, and only then, whatever stands in front
of it on its first physical line. -/
theorem IsBreak.isEven_iff (isBreak : IsBreak width (front ++ piece) gap rest)
    (solid : piece ≠ []) :
    Text.IsEven (piece ++ gap ++ rest) ↔ Text.IsEven piece ∧ Text.IsEven rest := by
  rcases isBreak.dropped with rfl | ⟨rfl, _⟩
  · rw [List.append_assoc, List.singleton_append, Text.isEven_append_space]
  have someRest : rest ≠ [] := by
    rintro rfl
    have long := isBreak.long
    rw [List.append_nil, List.append_nil] at long
    exact absurd isBreak.narrow (Nat.not_le_of_lt long)
  rw [List.append_nil]
  refine ⟨fun even => ?_, fun ⟨one, other⟩ =>
    (Text.isEven_append ⟨solid, someRest⟩ one.back other.front).mpr ⟨one, other⟩⟩
  refine (Text.isEven_append ⟨solid, someRest⟩ ?_ isBreak.head?_rest).mp even
  rcases Nat.lt_or_ge 1 (front ++ piece).length with behindFirst | first
  · have last := isBreak.getLast?_piece behindFirst
    rwa [List.getLast?_append_of_ne_nil _ solid] at last
  · -- The only character in front of the break is the first one of the text.
    obtain ⟨character, rfl⟩ : ∃ character, piece = [character] := by
      refine List.length_eq_one_iff.mp ?_
      have some_ := List.length_pos_of_ne_nil solid
      rw [List.length_append] at first
      omega
    exact even.front

theorem IsBreak.isTidy_iff (isBreak : IsBreak width (front ++ piece) gap rest)
    (solid : piece ≠ []) :
    Text.IsTidy (piece ++ gap ++ rest) ↔ Text.IsTidy piece ∧ Text.IsTidy rest := by
  have gapPlain : ∀ character ∈ gap, isSpace character = true → character = ' ' := by
    rcases isBreak.dropped with rfl | ⟨rfl, _⟩ <;> simp
  rw [Text.isTidy_iff, Text.isTidy_iff, Text.isTidy_iff, isBreak.isEven_iff solid,
    List.forall_mem_append, List.forall_mem_append]
  tauto

end Broken

/-- What holds of a line exactly if it holds in front of every break and behind it holds of the
line exactly if it holds of all physical lines. -/
theorem Divided.forall_iff {width : Nat} {Holds : Text → Prop}
    (broken : ∀ piece gap rest, IsBreak width piece gap rest →
      (Holds (piece ++ gap ++ rest) ↔ Holds piece ∧ Holds rest))
    {line : Text} {pieces : List Text} (divided : Divided width line pieces) :
    (∀ piece ∈ pieces, Holds piece) ↔ Holds line := by
  induction divided with
  | last narrow => exact List.forall_mem_singleton
  | next isBreak behind inductionHypothesis =>
    rw [List.forall_mem_cons, inductionHypothesis, broken _ _ _ isBreak]

/-- Breaking a line at any width neither makes nor hides a fault in its spaces. All physical lines
are even, with every space alone between two other characters, if the line is, and only then. -/
theorem even_wrap_iff (width : Nat) (line : Text) :
    (∀ piece ∈ wrap width line, Text.IsEven piece) ↔ Text.IsEven line := by
  have divided : Divided (max width 1) line (wrap width line) := divided_wrapWithin _ _ line
  refine divided.forall_iff fun piece gap rest isBreak => ?_
  exact @IsBreak.isEven_iff (max width 1) [] piece gap rest isBreak isBreak.solid

theorem Divided.isTidy_iff {width : Nat} {line : Text} {pieces : List Text}
    (divided : Divided width line pieces) :
    (∀ piece ∈ pieces, Text.IsTidy piece) ↔ Text.IsTidy line :=
  divided.forall_iff fun _ _ _ isBreak => @IsBreak.isTidy_iff width [] _ _ _ isBreak isBreak.solid

/-! ### Behind an indent -/

/-- Physical lines are tidy behind an indent where it stands in front of the first of them, and
they are tidy but for it. -/
def TidyBehind (indent : Text) (lines : List Text) : Prop :=
  ∃ first others, lines = (indent ++ first) :: others ∧ Text.IsTidy first ∧
    ∀ line ∈ others, Text.IsTidy line

/-- An indent is broken off where a line that has to be broken has places to break at, and all
of them are in the indent. -/
structure IsBrokenOff (width : Nat) (indent text : Text) : Prop where
  long : width < (indent ++ text).length
  somewhere : ∃ place, Break.IsPlace width (indent ++ text) place
  inside : ∀ place, Break.IsPlace width (indent ++ text) place → place < indent.length

/-- An indent is white space, and behind its first character there are only spaces in it. -/
structure IsIndent (indent : Text) : Prop where
  blank : indent.isBlank = true
  spaces : ∀ place, 0 < place → place < indent.length → indent[place]? = some ' '

theorem isIndent_firstCharacters (options : Options) (place : ParagraphPlace) :
    IsIndent (firstCharacters options place) := by
  refine ⟨isBlank_firstCharacters options place, fun index positive inside => ?_⟩
  rw [firstCharacters] at inside ⊢
  split at inside
  · rename_i indented
    rw [if_pos indented]
    cases indent : options.indent with
    | tab =>
      rw [indent, Indent.text, List.length_singleton] at inside
      exact absurd positive (Nat.not_lt_of_le (Nat.le_of_lt_succ inside))
    | spaces count =>
      rw [indent, Indent.text, List.length_replicate] at inside
      rw [Indent.text, List.getElem?_replicate, if_pos inside]
  · exact absurd inside (Nat.not_lt_zero _)

section Indented

variable {width : Nat} {indent text piece gap rest : Text}

/-- A break that comes no later than the indent does breaks it off. -/
theorem IsBreak.isBrokenOff (isBreak : IsBreak width piece gap rest) (wide : 1 < width)
    {behind : Text} (isIndent : IsIndent (piece ++ behind)) (even : Text.IsEven text)
    (whole : piece ++ gap ++ rest = piece ++ behind ++ text) :
    IsBrokenOff width (piece ++ behind) text where
  long := whole ▸ isBreak.long
  somewhere := by
    rw [← whole]
    rcases isBreak.dropped with rfl | ⟨rfl, hyphen | ⟨full, _⟩⟩
    · exact ⟨_, isBreak.isPlace_of_space rfl⟩
    · have member : '-' ∈ piece ++ behind := List.mem_append_left _ (List.mem_of_getLast? hyphen)
      exact absurd ((Text.isBlank_iff _).mp isIndent.blank _ member) (by decide)
    · have inside : 1 < (piece ++ behind).length := by
        rw [List.length_append]
        omega
      refine ⟨1, Nat.succ_pos 0, Or.inl ⟨?_, wide.le⟩⟩
      rw [whole, List.getElem?_append_left inside, isIndent.spaces 1 (Nat.succ_pos 0) inside]
  inside place isPlace := by
    -- A place behind the indent would be a space right behind it that has been dropped.
    by_contra outside
    have used := isBreak.last place (whole ▸ isPlace)
    rw [List.length_append] at outside used
    rcases isBreak.dropped with rfl | ⟨rfl, _⟩
    · rw [List.length_singleton] at used
      obtain rfl : behind = [] := List.eq_nil_of_length_eq_zero (by omega)
      rw [List.append_nil, List.append_assoc, List.append_cancel_left_eq] at whole
      exact even.front (by rw [← whole]; rfl)
    · rw [List.length_nil] at used
      omega

/-- An indent that stands in front of something of the text on the first physical line is not
broken off. -/
theorem IsBreak.not_isBrokenOff (isBreak : IsBreak width (indent ++ piece) gap rest)
    (solid : piece ≠ []) : ¬IsBrokenOff width indent (piece ++ gap ++ rest) := by
  rintro ⟨_, ⟨place, isPlace⟩, inside⟩
  have whole : indent ++ (piece ++ gap ++ rest) = indent ++ piece ++ gap ++ rest := by
    simp only [List.append_assoc]
  rw [whole] at isPlace inside
  have somePiece := List.length_pos_of_ne_nil solid
  rcases isBreak.dropped with rfl | ⟨rfl, hyphen | ⟨_, nowhere⟩⟩
  · have before := inside _ (isBreak.isPlace_of_space rfl)
    rw [List.length_append] at before
    omega
  · have length : (indent ++ piece).length = indent.length + piece.length := List.length_append
    have behindFirst := isPlace.1
    have before := inside place isPlace
    have narrow := isBreak.narrow
    have here : Break.IsPlace width (indent ++ piece ++ [] ++ rest)
        ((indent ++ piece).length - 1) :=
      ⟨by omega, Or.inr ⟨(getElem?_end isBreak.solid rest).trans hyphen, by omega⟩⟩
    have ending := inside _ here
    omega
  · exact nowhere place isPlace

/-- An indented text has physical lines that are tidy behind the indent if the text is tidy and
the indent is not broken off, and only then. -/
theorem Divided.tidyBehind_iff {pieces : List Text} (wide : 1 < width) (isIndent : IsIndent indent)
    (divided : Divided width (indent ++ text) pieces) :
    TidyBehind indent pieces ↔ Text.IsTidy text ∧ ¬IsBrokenOff width indent text := by
  generalize whole : indent ++ text = line at divided
  cases divided with
  | last narrow =>
    subst whole
    constructor
    · rintro ⟨first, others, same, tidy, _⟩
      obtain rfl : text = first := List.append_cancel_left (List.cons.inj same).1
      exact ⟨tidy, fun brokenOff => absurd brokenOff.long (Nat.not_lt_of_le narrow)⟩
    · rintro ⟨tidy, _⟩
      exact ⟨text, [], rfl, tidy, List.forall_mem_nil _⟩
  | @next piece gap rest others isBreak behind =>
    constructor
    · rintro ⟨first, others, same, tidy, tidyOthers⟩
      obtain ⟨rfl, rfl⟩ := List.cons.inj same
      obtain rfl : text = first ++ gap ++ rest := by
        simpa only [List.append_assoc, List.append_cancel_left_eq] using whole
      exact ⟨(isBreak.isTidy_iff tidy.solid).mpr ⟨tidy, behind.isTidy_iff.mp tidyOthers⟩,
        isBreak.not_isBrokenOff tidy.solid⟩
    · rintro ⟨tidy, stays⟩
      have front : piece <+: indent ++ text := by
        rw [whole, List.append_assoc]
        exact List.prefix_append _ _
      have longer : indent.length < piece.length := by
        by_contra short
        obtain ⟨behind, rfl⟩ := List.prefix_of_prefix_length_le front (List.prefix_append _ _)
          (Nat.le_of_not_lt short)
        exact stays (isBreak.isBrokenOff wide isIndent tidy.toIsEven whole.symm)
      obtain ⟨first, rfl⟩ :=
        List.prefix_of_prefix_length_le (List.prefix_append indent text) front longer.le
      obtain rfl : text = first ++ gap ++ rest := by
        simpa only [List.append_assoc, List.append_cancel_left_eq] using whole
      have solid : first ≠ [] := by
        rintro rfl
        rw [List.append_nil] at longer
        exact absurd longer (Nat.lt_irrefl _)
      obtain ⟨tidyFirst, tidyRest⟩ := (isBreak.isTidy_iff solid).mp tidy
      exact ⟨first, others, rfl, tidyFirst, behind.isTidy_iff.mpr tidyRest⟩

end Indented

/-! ### What lines say -/

/-- Marks on different sides of a space have nothing to do with each other. -/
theorem stripEmphasis_append_space (word rest : Text) :
    stripEmphasis (word ++ ' ' :: rest) = stripEmphasis word ++ ' ' :: stripEmphasis rest := by
  induction word using marks_induction with
  | pair word inductionHypothesis =>
    rw [List.cons_append, List.cons_append, stripEmphasis_pair, stripEmphasis_pair,
      inductionHypothesis]
  | single word alone inductionHypothesis =>
    have stillAlone : (word ++ ' ' :: rest).head? ≠ some '_' := by
      cases word with
      | nil => exact fun same => absurd (Option.some.inj same) (by decide)
      | cons next word => exact alone
    rw [List.cons_append, stripEmphasis_single alone, stripEmphasis_single stillAlone,
      inductionHypothesis, List.cons_append]
  | asterisk word inductionHypothesis =>
    rw [List.cons_append, stripEmphasis_asterisk, stripEmphasis_asterisk, inductionHypothesis]
  | other character word noUnderscore noAsterisk inductionHypothesis =>
    rw [List.cons_append, stripEmphasis_cons noUnderscore noAsterisk,
      stripEmphasis_cons noUnderscore noAsterisk, inductionHypothesis, List.cons_append]
  | nil => exact stripEmphasis_cons (by decide) (by decide) rest

/-- The marks are taken out of each word by itself. -/
theorem splitOn_stripEmphasis (line : Text) :
    (stripEmphasis line).splitOn ' ' = (line.splitOn ' ').map stripEmphasis := by
  by_cases spaced : ' ' ∈ line
  · obtain ⟨word, rest, rfl, _⟩ := List.eq_append_cons_of_mem spaced
    rw [stripEmphasis_append_space, List.splitOn_append_cons_self, List.splitOn_append_cons_self,
      List.map_append, splitOn_stripEmphasis word, splitOn_stripEmphasis rest]
  · have none : ' ' ∉ stripEmphasis line := fun member =>
      spaced ((stripEmphasis_sublist line).mem member)
    rw [List.splitOn_eq_singleton spaced, List.splitOn_eq_singleton none, List.map_singleton]
termination_by line.length

/-- A tidy line is tidy without its marks as well, unless a word is nothing but marks. -/
theorem isTidy_stripEmphasis {words : Text} (tidy : Text.IsTidy words) :
    Text.IsTidy (stripEmphasis words) ↔ ∀ word ∈ words.splitOn ' ', stripEmphasis word ≠ [] := by
  have plain : ∀ character ∈ stripEmphasis words, isSpace character = true → character = ' ' :=
    fun character member => tidy.plain character ((stripEmphasis_sublist words).mem member)
  rw [Text.isTidy_iff, Text.isEven_iff, splitOn_stripEmphasis, List.forall_mem_map,
    and_iff_left plain]

/-- What is left of a tidy line without the word of a tag is tidy, if anything is. -/
theorem isTidy_strip (tag : Tag) {words : Text} (tidy : Text.IsTidy words)
    (solid : tag.strip words ≠ []) : Text.IsTidy (tag.strip words) := by
  obtain ⟨rest, within, stripped⟩ : ∃ rest, rest <:+ words ∧ tag.strip words = Text.trim rest := by
    have behindWord : (tag.restAfter? words).getD words <:+ words := by
      rw [Tag.restAfter?]
      split
      · exact List.drop_suffix _ _
      · exact List.suffix_rfl
    cases tag with
    | sectionBreak => exact ⟨words, List.suffix_rfl, rfl⟩
    | author | chapter | sectionTag | title =>
      exact ⟨_, behindWord, by simp only [Tag.strip, tidy.trim_eq]⟩
  rw [stripped] at solid ⊢
  exact Text.isTidy_trim solid (fun pair => tidy.single (pair.trans within.isInfix))
    fun character member => tidy.plain character (within.mem member)

/-- What a tag says is tidy, if it says anything. -/
theorem isTidy_renderTag (tag : Tag) {words : Text} (tidy : Text.IsTidy words)
    (solid : renderTag tag words ≠ []) : Text.IsTidy (renderTag tag words) := by
  cases tag with
  | author =>
    have by_ : Text.IsTidy (Text.tidy "by".toList) := Text.isTidy_tidy rfl
    simp only [renderTag]
    split
    · exact by_
    · rename_i some_
      have rest := isTidy_strip .author tidy fun empty => some_ (by rw [empty]; rfl)
      exact (Text.isTidy_append_space _ _).mpr ⟨by_, rest⟩
  | chapter | sectionTag | title | sectionBreak =>
    simp only [renderTag] at solid ⊢
    exact isTidy_strip _ tidy solid

/-! ### The text of a line -/

theorem divided_page (line : Text) : Divided pageWidth line (wrap pageWidth line) :=
  divided_wrapWithin (max pageWidth 1) (by decide) line

/-- Outside prose every physical line of text is tidy. -/
theorem isTidy_of_mem_text {options : Options} {context : Context} {visible physical : Text}
    (other : context.line ≠ .prose) (member : physical ∈ (shareOf options context visible).text) :
    Text.IsTidy physical := by
  unfold shareOf at member
  cases line : context.line with
  | blank =>
    rw [line] at member
    exact absurd member List.not_mem_nil
  | prose => exact absurd line other
  | tagged tag =>
    simp only [line] at member
    split at member
    · exact absurd member List.not_mem_nil
    split at member
    · exact absurd member List.not_mem_nil
    rename_i words solid
    rw [List.isEmpty_iff] at words solid
    have inked : visible.isBlank = false := by
      rwa [Text.tidy_eq_nil_iff, Bool.not_eq_true] at words
    have tidy := isTidy_renderTag tag (Text.isTidy_tidy inked) solid
    exact (divided_page _).isTidy_iff.mpr tidy _ member

/-- Normalised text on the page. The physical lines of a line are empty ones that pad it or set
it apart, and those of its text at the chosen spacing. The text of a blank line, of a line with a
tag and of one on which nothing is visible has only tidy physical lines. That of a line of prose
is tidy behind the indent exactly if every word of the line is more than marks and the indent is
not broken off. -/
theorem text_in_order (options : Options) (context : Context) (visible : Text) :
    let share := shareOf options context visible
    let indent := firstCharacters options (.ofContext context)
    let words := Text.tidy visible
    linesOf options context visible =
        List.replicate share.empties [] ++ spaced options share.text ∧
      (context.line ≠ .prose → ∀ physical ∈ share.text, Text.IsTidy physical) ∧
      (context.line = .prose → visible.isBlank = true → share.text = []) ∧
      (context.line = .prose → visible.isBlank = false →
        (TidyBehind indent share.text ↔
          (∀ word ∈ words.splitOn ' ', stripEmphasis word ≠ []) ∧
            ¬IsBrokenOff pageWidth indent (stripEmphasis words))) := by
  refine ⟨linesOf_eq_share options context visible,
    fun other physical member => isTidy_of_mem_text other member,
    fun prose blank => ?_, fun prose inked => ?_⟩
  · have words : (Text.tidy visible).isEmpty = true := by
      rwa [List.isEmpty_iff, Text.tidy_eq_nil_iff]
    simp only [shareOf, prose, words, if_true]
  · have words : ¬(Text.tidy visible).isEmpty = true := by
      rw [List.isEmpty_iff, Text.tidy_eq_nil_iff, inked]
      exact Bool.false_ne_true
    simp only [shareOf, prose, if_neg words, renderProse_eq]
    rw [(divided_page _).tidyBehind_iff (by decide) (isIndent_firstCharacters _ _),
      isTidy_stripEmphasis (Text.isTidy_tidy inked)]

/-- An indent of four spaces stays in front of a paragraph in which other words come before the
one that is too long for the page. A line of prose that is an aside as a whole has no text. -/
theorem text_in_order_behind_indent :
    let options := { Options.standard with indent := .spaces 4 }
    let here := (Compiler.new options .none).begin.advanceAll ["x".toList, []]
    let text (raw : Text) := (shareOf options (here.advance raw).context (here.visible raw)).text
    let raw := "One  *two* [three] ".toList ++ List.replicate 90 'a'
    let aside := " [a b] ".toList
    (here.advance raw).context.line = .prose ∧
      text raw = ["    One two".toList, List.replicate 80 'a', List.replicate 10 'a'] ∧
      TidyBehind "    ".toList (text raw) ∧
      (here.advance aside).context.line = .prose ∧ text aside = [] := by
  intro options here text raw aside
  have prose : (here.advance raw).context.line = .prose := by decide +kernel
  have proseToo : (here.advance aside).context.line = .prose := by decide +kernel
  have indent : firstCharacters options (.ofContext (here.advance raw).context) =
      "    ".toList := by decide +kernel
  have words : Text.tidy (here.visible raw) = "One *two* ".toList ++ List.replicate 90 'a' := by
    decide +kernel
  have kept : ¬IsBrokenOff pageWidth "    ".toList
      (stripEmphasis (Text.tidy (here.visible raw))) := by
    rw [words]
    -- There is a space behind the first word, and that is not in the indent.
    have space : Break.IsPlace pageWidth ("    ".toList ++
        stripEmphasis ("One *two* ".toList ++ List.replicate 90 'a')) 7 :=
      ⟨by decide, Or.inl ⟨by decide +kernel, by decide⟩⟩
    exact fun isBrokenOff => absurd (isBrokenOff.inside 7 space) (by decide)
  obtain ⟨_, _, _, inOrder⟩ :=
    text_in_order options (here.advance raw).context (here.visible raw)
  obtain ⟨_, _, hidden, _⟩ :=
    text_in_order options (here.advance aside).context (here.visible aside)
  rw [indent] at inOrder
  exact ⟨prose, by decide +kernel,
    (inOrder prose (by decide +kernel)).mpr ⟨by rw [words]; decide +kernel, kept⟩, proseToo,
    hidden proseToo (by decide +kernel)⟩

/-- Behind a line of prose, a line that is only a mark has an empty physical line, and a mark
between two words leaves two spaces there. An indent of four spaces comes off a word that is too
long for the page. -/
theorem text_out_of_order :
    (let here := (Compiler.new .standard .none).begin.advance "x".toList
      let text (raw : Text) :=
        (shareOf .standard (here.advance raw).context (here.visible raw)).text
      (here.advance "*".toList).context.line = .prose ∧
        firstCharacters .standard (.ofContext (here.advance "*".toList).context) = [] ∧
        text "*".toList = [[]] ∧ ¬TidyBehind [] [[]] ∧
        text "a * b".toList = ["a  b".toList] ∧ ¬TidyBehind [] ["a  b".toList]) ∧
      let options := { Options.standard with indent := .spaces 4 }
      let here := (Compiler.new options .none).begin.advanceAll ["x".toList, []]
      let raw := List.replicate 90 'a'
      let text := ["   ".toList, List.replicate 80 'a', List.replicate 10 'a']
      (shareOf options (here.advance raw).context (here.visible raw)).text = text ∧
        ¬TidyBehind "    ".toList text := by
  refine ⟨⟨by decide +kernel, by decide +kernel, by decide +kernel, ?_, by decide +kernel, ?_⟩,
    by decide +kernel, ?_⟩
  · rintro ⟨first, _, same, tidy, _⟩
    obtain rfl : [] = first := (List.cons.inj same).1
    exact tidy.solid rfl
  · rintro ⟨first, _, same, tidy, _⟩
    obtain rfl : "a  b".toList = first := (List.cons.inj same).1
    exact tidy.single (by decide)
  · rintro ⟨first, _, same, _⟩
    have length : 3 = (4 + first.length : Nat) :=
      (congrArg List.length (List.cons.inj same).1).trans List.length_append
    omega

end Manuscript.Layout
