/-
This file is about the quotes that are open at a line. They are kept by their indentations,
and each one stands deeper than the one around it. Only a line of prose behind a blank line
can open or close any, and it goes by the white space that it begins with, all of it: there is
no way to take a part of that white space for an indentation, because what stands behind the
part is white space again. So the quotes that are open never outnumber the characters of the
deepest margin that there has been.
-/

import Mathlib.Data.List.Induction
import Manuscript.Proofs.Context.Bearing

namespace Manuscript

namespace Text

/-- The white space that a line begins with. -/
def margin (line : Text) : Text :=
  line.takeWhile isSpace

theorem margin_append_trimStart (line : Text) : line.margin ++ trimStart line = line :=
  List.takeWhile_append_dropWhile

end Text

namespace Quotes

/-! ### The indentation of a line -/

/-- Whether some white space that a line begins with can be taken for its indentation: it is not
empty, and what stands behind it is neither white space nor a hyphen. Nothing is said of how
much of the white space it is. -/
structure Indents (line leading : Text) : Prop where
  solid : leading ≠ []
  blank : leading.isBlank = true
  ahead : ∃ character rest,
    line = leading ++ character :: rest ∧ isSpace character = false ∧ character ≠ '-'

/-- Whatever can be taken for the indentation of a line is the whole of its margin. -/
theorem indents_iff (line leading : Text) :
    Indents line leading ↔ leading = line.margin ∧ line.margin ≠ [] ∧ line.isBlank = false ∧
      (Text.trimStart line).head? ≠ some '-' := by
  constructor
  · rintro ⟨solid, blank, character, rest, rfl, letter, other⟩
    have spaces := (Text.isBlank_iff leading).mp blank
    have stops : ¬isSpace character = true := Bool.eq_false_iff.mp letter
    have whole : Text.margin (leading ++ character :: rest) = leading := by
      rw [Text.margin, List.takeWhile_append_of_pos spaces, List.takeWhile_cons_of_neg stops,
        List.append_nil]
    have behind : Text.trimStart (leading ++ character :: rest) = character :: rest := by
      rw [Text.trimStart, List.dropWhile_append_of_pos spaces, List.dropWhile_cons_of_neg stops]
    have inked : Text.isBlank (leading ++ character :: rest) = false := by
      rw [Text.isBlank_append, Text.isBlank, Text.isBlank, List.all_cons, letter, Bool.false_and,
        Bool.and_false]
    rw [whole, behind]
    exact ⟨rfl, solid, inked, fun hyphen => other (Option.some.inj hyphen)⟩
  · rintro ⟨rfl, solid, inked, other⟩
    refine ⟨solid, Text.isBlank_takeWhile line, ?_⟩
    cases behind : Text.trimStart line with
    | nil =>
      rw [(Text.trimStart_eq_nil_iff line).mp behind] at inked
      cases inked
    | cons character rest =>
      refine ⟨character, rest, ?_, ?_, ?_⟩
      · rw [← behind, Text.margin_append_trimStart]
      · exact Text.isSpace_head?_trimStart line (by rw [behind, List.head?_cons])
      · rintro rfl
        exact other (by rw [behind, List.head?_cons])

theorem indentation?_eq (line : Text) :
    indentation? line =
      if line.margin = [] ∨ line.isBlank = true ∨ (Text.trimStart line).head? = some '-' then
        Option.none
      else some line.margin := by
  simp only [← Text.trimStart_eq_nil_iff]
  unfold indentation? Text.margin Text.trimStart
  cases line.takeWhile isSpace with
  | nil => simp
  | cons first more =>
    cases line.dropWhile isSpace with
    | nil => simp
    | cons character rest => simp

/-- What is taken for the indentation of a line is what can be taken for it. -/
theorem indentation?_eq_some_iff (line leading : Text) :
    indentation? line = some leading ↔ Indents line leading := by
  rw [indents_iff, indentation?_eq]
  split
  · rename_i none
    refine iff_of_false nofun ?_
    rintro ⟨-, margin, inked, other⟩
    rw [inked] at none
    rcases none with empty | blank | hyphen
    · exact margin empty
    · cases blank
    · exact other hyphen
  · rename_i some
    rw [not_or, not_or, Bool.not_eq_true] at some
    rw [Option.some_inj]
    exact ⟨fun same => ⟨same.symm, some⟩, fun same => same.1.symm⟩

/-! ### One line -/

/-- The indentation of the innermost quote, or none where no quote is open. -/
def top (stack : List Text) : Nat :=
  (stack.getLast?.map List.length).getD 0

/-- The indentations of the quotes, the outermost first, from a line on that begins a paragraph,
by the margin of that line. -/
def stackFrom (stack : List Text) (line : Text) : List Text :=
  if line.margin = [] ∨ (Text.trimStart line).head? = some '-' then []
  else if top stack < line.margin.length then stack ++ [line.margin]
  else if line.margin.length < top stack then stack.dropLast
  else stack

theorem depth_eq (quotes : Quotes) : quotes.depth = quotes.outermostFirst.length :=
  List.length_reverse.symm

theorem top_outermostFirst (quotes : Quotes) : top quotes.outermostFirst = quotes.reach := by
  rw [top, outermostFirst, List.getLast?_reverse, reach]

theorem outermostFirst_adjust (quotes : Quotes) {line : Text} (inked : line.isBlank = false) :
    (quotes.adjust line).outermostFirst = stackFrom quotes.outermostFirst line := by
  rw [adjust, indentation?_eq, inked, stackFrom, top_outermostFirst]
  simp only [Bool.false_eq_true, false_or]
  by_cases atMargin : line.margin = [] ∨ (Text.trimStart line).head? = some '-'
  · rw [if_pos atMargin, if_pos atMargin]
    rfl
  · rw [if_neg atMargin, if_neg atMargin]
    simp only
    split
    · rw [outermostFirst, List.reverse_cons, outermostFirst]
    · split
      · rw [outermostFirst, outermostFirst, List.dropLast_reverse]
      · rfl

/-! ### Quotes inside one another -/

/-- Indentations of quotes that stand inside one another, the outermost first. -/
structure Nested (stack : List Text) : Prop where
  solid : ∀ level ∈ stack, level ≠ []
  blank : ∀ level ∈ stack, Text.isBlank level = true
  deeper : stack.Pairwise fun outer inner => outer.length < inner.length

theorem nested_nil : Nested [] where
  solid _ member := absurd member List.not_mem_nil
  blank _ member := absurd member List.not_mem_nil
  deeper := .nil

theorem Nested.sublist {part stack : List Text} (nested : Nested stack)
    (within : part.Sublist stack) : Nested part where
  solid level member := nested.solid level (within.mem member)
  blank level member := nested.blank level (within.mem member)
  deeper := nested.deeper.sublist within

theorem top_concat (stack : List Text) (level : Text) : top (stack ++ [level]) = level.length := by
  rw [top, List.getLast?_concat, Option.map_some, Option.getD_some]

/-- No quote stands deeper than the innermost one. -/
theorem Nested.length_le_top {stack : List Text} (nested : Nested stack) :
    ∀ level ∈ stack, level.length ≤ top stack := by
  cases stack using List.reverseRecOn with
  | nil => exact fun level member => absurd member List.not_mem_nil
  | append_singleton stack last =>
    intro level member
    rw [top_concat]
    rcases List.mem_append.mp member with before | here
    · have deeper := (List.pairwise_append.mp nested.deeper).2.2
      exact (deeper level before last (List.mem_singleton_self last)).le
    · rw [List.mem_singleton.mp here]

/-- A margin that is deeper than every quote opens one more. -/
theorem Nested.concat {stack : List Text} (nested : Nested stack) {margin : Text}
    (solid : margin ≠ []) (blank : margin.isBlank = true) (deep : top stack < margin.length) :
    Nested (stack ++ [margin]) where
  solid := List.forall_mem_append.mpr ⟨nested.solid, List.forall_mem_singleton.mpr solid⟩
  blank := List.forall_mem_append.mpr ⟨nested.blank, List.forall_mem_singleton.mpr blank⟩
  deeper := List.pairwise_append.mpr ⟨nested.deeper, List.pairwise_singleton _ _,
    fun level member => List.forall_mem_singleton.mpr
      ((nested.length_le_top level member).trans_lt deep)⟩

theorem Nested.stackFrom {stack : List Text} (nested : Nested stack) (line : Text) :
    Nested (stackFrom stack line) := by
  unfold Quotes.stackFrom
  split
  · exact nested_nil
  · rename_i indented
    split
    · exact nested.concat (not_or.mp indented).1 (Text.isBlank_takeWhile line) ‹_›
    · split
      · exact nested.sublist (List.dropLast_sublist stack)
      · exact nested

/-- There are no more quotes than the innermost one is deep. -/
theorem Nested.length_le {stack : List Text} (nested : Nested stack) :
    stack.length ≤ top stack := by
  induction stack using List.reverseRecOn with
  | nil => exact Nat.le_refl 0
  | append_singleton stack level inductionHypothesis =>
    have around := inductionHypothesis (nested.sublist (List.sublist_append_left stack [level]))
    have positive : 0 < level.length := List.length_pos_iff.mpr
      (nested.solid level (List.mem_append_right stack (List.mem_singleton_self level)))
    have deep : top stack < level.length := by
      cases last : stack.getLast? with
      | none => rwa [top, last]
      | some outer =>
        have deeper := (List.pairwise_append.mp nested.deeper).2.2
        rw [top, last]
        exact deeper outer (List.mem_of_getLast? last) level (List.mem_singleton_self level)
    rw [top_concat, List.length_append, List.length_singleton]
    omega

/-- A line opens or closes one quote at most, or closes them all. -/
theorem length_stackFrom (stack : List Text) (line : Text) :
    (stackFrom stack line).length = 0 ∨
      (stackFrom stack line).length ≤ stack.length + 1 ∧
        stack.length ≤ (stackFrom stack line).length + 1 := by
  unfold stackFrom
  split
  · exact Or.inl rfl
  · refine Or.inr ?_
    split
    · rw [List.length_append, List.length_singleton]
      omega
    · split
      · rw [List.length_dropLast]
        omega
      · omega

theorem mem_stackFrom {stack : List Text} {line level : Text}
    (member : level ∈ stackFrom stack line) : level ∈ stack ∨ level = line.margin := by
  unfold stackFrom at member
  split at member
  · cases member
  · split at member
    · exact (List.mem_append.mp member).imp_right List.mem_singleton.mp
    · split at member
      · exact Or.inl ((List.dropLast_sublist stack).mem member)
      · exact Or.inl member

end Quotes

/-! ### Along the lines -/

/-- What can happen to a context. -/
inductive Happening where
  | line (raw : Text)
  /-- A further file begins. -/
  | furtherFile
  /-- A first paragraph is watched for from here on. -/
  | watch
  deriving DecidableEq, Repr

namespace Context

/-- The context behind something that happens to it. -/
def meet (context : Context) : Happening → Context
  | .line raw => context.advance raw
  | .furtherFile => .restart
  | .watch => context.arm

/-- The context behind all that has happened since the beginning of a document. -/
def behind (happenings : List Happening) : Context :=
  happenings.foldl meet .start

theorem behind_concat (happenings : List Happening) (next : Happening) :
    behind (happenings ++ [next]) = (behind happenings).meet next :=
  List.foldl_append

theorem isBlank_of_prose {context : Context} {raw : Text}
    (prose : (context.advance raw).line = .prose) : raw.isBlank = false := by
  by_contra blank
  have line : (context.advance raw).line = .blank :=
    classify_of_isBlank _ (Bool.not_eq_false _ ▸ blank)
  rw [line] at prose
  cases prose

/-- Quotes are opened and closed at a line of prose behind a blank line, and nowhere else. -/
theorem quotes_advance (context : Context) (raw : Text) :
    (context.advance raw).quotes.outermostFirst =
      if (context.advance raw).line = .prose ∧ (context.advance raw).previous = .blank then
        Quotes.stackFrom context.quotes.outermostFirst raw
      else context.quotes.outermostFirst := by
  have previous : (context.advance raw).previous = context.line := rfl
  rw [previous]
  by_cases opens : (context.advance raw).line = .prose ∧ context.line = .blank
  · have moved : (context.advance raw).quotes = context.quotes.adjust raw := by
      have line : classify .blank raw = .prose := opens.2 ▸ opens.1
      simp only [advance, opens.2, line]
    rw [if_pos opens, moved, Quotes.outermostFirst_adjust _ (isBlank_of_prose opens.1)]
  · have moved : (context.advance raw).quotes = context.quotes := by
      simp only [advance]
      split
      · rename_i prose blank
        exact absurd ⟨prose, blank⟩ opens
      · rfl
    rw [if_neg opens, moved]

/-- Quotes stand inside one another, and each has the margin of a line that has been read. -/
theorem nested_behind (happenings : List Happening) :
    Quotes.Nested (behind happenings).quotes.outermostFirst ∧
      ∀ level ∈ (behind happenings).quotes.outermostFirst,
        ∃ raw, .line raw ∈ happenings ∧ level = raw.margin := by
  induction happenings using List.reverseRecOn with
  | nil => exact ⟨Quotes.nested_nil, fun level member => absurd member List.not_mem_nil⟩
  | append_singleton happenings next inductionHypothesis =>
    obtain ⟨nested, seen⟩ := inductionHypothesis
    have stillSeen : ∀ level ∈ (behind happenings).quotes.outermostFirst,
        ∃ raw, .line raw ∈ happenings ++ [next] ∧ level = raw.margin := by
      intro level member
      obtain ⟨raw, before, same⟩ := seen level member
      exact ⟨raw, List.mem_append_left _ before, same⟩
    rw [behind_concat]
    cases next with
    | line raw =>
      rw [meet, quotes_advance]
      split
      · refine ⟨nested.stackFrom raw, fun level member => ?_⟩
        rcases Quotes.mem_stackFrom member with before | here
        · exact stillSeen level before
        · exact ⟨raw, List.mem_append_right _ (List.mem_singleton_self _), here⟩
      · exact ⟨nested, stillSeen⟩
    | furtherFile => exact ⟨Quotes.nested_nil, fun level member => absurd member List.not_mem_nil⟩
    | watch => exact ⟨nested, stillSeen⟩

/-- No more quotes are open than the deepest margin so far has characters. -/
theorem depth_behind (happenings : List Happening) :
    (behind happenings).quotes.depth = 0 ∨ ∃ raw, .line raw ∈ happenings ∧
      (behind happenings).quotes.depth ≤ raw.margin.length := by
  obtain ⟨nested, seen⟩ := nested_behind happenings
  have deep := nested.length_le
  rw [Quotes.depth_eq]
  cases innermost : (behind happenings).quotes.outermostFirst.getLast? with
  | none =>
    rw [List.getLast?_eq_none_iff] at innermost
    exact Or.inl (by rw [innermost, List.length_nil])
  | some level =>
    obtain ⟨raw, read, same⟩ := seen level (List.mem_of_getLast? innermost)
    rw [Quotes.top, innermost] at deep
    exact Or.inr ⟨raw, read, by rw [← same]; exact deep⟩

/-- Whatever has happened since the beginning of a document, the quotes that are open stand
inside one another, each with an indentation that is white space and deeper than that of the
one around it, and there are no more of them than the deepest margin so far has characters.
They change at a line of prose behind a blank line only, by the margin of that line: no margin,
or a hyphen behind it, closes them all, a deeper one opens one quote, a less deep one closes
one, and whatever can be taken for an indentation is the whole margin. A further file begins
without quotes. -/
theorem quotes_go_by_margins (happenings : List Happening) :
    let here := behind happenings
    here.quotes.depth = here.quotes.outermostFirst.length ∧
      Quotes.Nested here.quotes.outermostFirst ∧
      (here.quotes.depth = 0 ∨
        ∃ raw, .line raw ∈ happenings ∧ here.quotes.depth ≤ raw.margin.length) ∧
      (∀ raw, let next := here.meet (.line raw)
        (next.quotes.outermostFirst =
          if next.line = .prose ∧ next.previous = .blank then
            Quotes.stackFrom here.quotes.outermostFirst raw
          else here.quotes.outermostFirst) ∧
        (next.quotes.depth = 0 ∨ next.quotes.depth ≤ here.quotes.depth + 1 ∧
          here.quotes.depth ≤ next.quotes.depth + 1) ∧
        ∀ leading, (Quotes.indentation? raw = some leading ↔ Quotes.Indents raw leading) ∧
          (Quotes.Indents raw leading ↔ leading = raw.margin ∧ raw.margin ≠ [] ∧
            raw.isBlank = false ∧ (Text.trimStart raw).head? ≠ some '-')) ∧
      (here.meet .furtherFile).quotes = .none ∧ (here.meet .watch).quotes = here.quotes := by
  intro here
  refine ⟨Quotes.depth_eq _, (nested_behind happenings).1, depth_behind happenings,
    fun raw => ?_, rfl, rfl⟩
  have moved := quotes_advance here raw
  refine ⟨moved, ?_, fun leading =>
    ⟨Quotes.indentation?_eq_some_iff raw leading, Quotes.indents_iff raw leading⟩⟩
  rw [Quotes.depth_eq, Quotes.depth_eq here.quotes, meet, moved]
  split
  · exact Quotes.length_stackFrom _ raw
  · exact Or.inr ⟨Nat.le_succ _, Nat.le_succ _⟩

/-- A line that is less deep than both open quotes closes the inner one only. -/
example : (behind ((["  a", "", "    b", "", " c"].map String.toList).map .line)).quotes =
    ⟨["  ".toList]⟩ := by
  decide +kernel

end Context

end Manuscript
