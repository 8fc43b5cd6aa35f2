/-
This file is about texts whose white space is in order: they begin and end with something else
and have nothing but single spaces in between. Such a text is one that is put together from
words with a space between them. The words of a line are such a text whenever there are any,
and there is nothing left to trim from it. A word that stands
right in front of a line can be taken off before the white space of the line is put in order
or afterwards; but for the space that may be left behind the word it comes to the same.
-/

import Mathlib.Data.List.Basic
import Mathlib.Data.List.Induction
import Manuscript.Proofs.Text.Space

namespace Manuscript.Text

/-- A pair of the same character in a text stands at its beginning or in what follows the first
character. -/
theorem pair_infix_cons (mark character : Char) (text : Text) :
    [mark, mark] <:+: character :: text ↔
      character = mark ∧ text.head? = some mark ∨ [mark, mark] <:+: text := by
  have front : [mark] <+: text ↔ text.head? = some mark := by
    cases text with
    | nil => simp
    | cons next text => simp [List.cons_prefix_cons, eq_comm]
  rw [List.infix_cons_iff, List.cons_prefix_cons, front, eq_comm]

/-- A pair of the same character in two texts one after the other is in one of them, or it is
the end of the first and the beginning of the second. -/
theorem pair_infix_append (mark : Char) (front text : Text) :
    [mark, mark] <:+: front ++ text ↔
      [mark, mark] <:+: front ∨ front.getLast? = some mark ∧ text.head? = some mark ∨
        [mark, mark] <:+: text := by
  induction front with
  | nil => simp
  | cons first front inductionHypothesis =>
    rw [List.cons_append, pair_infix_cons, inductionHypothesis, pair_infix_cons, or_assoc]
    cases front with
    | nil => simp
    | cons next front => rfl

/-! ### Even texts -/

/-- A text is even where every space in it stands alone between two other characters. -/
structure IsEven (text : Text) : Prop where
  solid : text ≠ []
  front : text.head? ≠ some ' '
  back : text.getLast? ≠ some ' '
  single : ¬[' ', ' '] <:+: text

/-- Two texts that do not meet in a space are even if their whole is, and only then. -/
theorem isEven_append {piece rest : Text} (some_ : piece ≠ [] ∧ rest ≠ [])
    (back : piece.getLast? ≠ some ' ') (front : rest.head? ≠ some ' ') :
    IsEven (piece ++ rest) ↔ IsEven piece ∧ IsEven rest := by
  have first : (piece ++ rest).head? = piece.head? := List.head?_append_of_ne_nil piece some_.1
  have last : (piece ++ rest).getLast? = rest.getLast? :=
    List.getLast?_append_of_ne_nil piece some_.2
  constructor
  · intro even
    have single := even.single
    rw [pair_infix_append, not_or, not_or] at single
    exact ⟨⟨some_.1, first ▸ even.front, back, single.1⟩,
      ⟨some_.2, front, last ▸ even.back, single.2.2⟩⟩
  · rintro ⟨one, other⟩
    refine ⟨List.append_ne_nil_of_left_ne_nil some_.1 _, first ▸ one.front, last ▸ other.back, ?_⟩
    rw [pair_infix_append, not_or, not_or, not_and]
    exact ⟨one.single, fun same => absurd same back, other.single⟩

/-- Two texts with a space in between are even if their whole is, and only then. -/
theorem isEven_append_space (piece rest : Text) :
    IsEven (piece ++ ' ' :: rest) ↔ IsEven piece ∧ IsEven rest := by
  have pair : [' ', ' '] <:+: piece ++ ' ' :: rest ↔ [' ', ' '] <:+: piece ∨
      piece.getLast? = some ' ' ∨ rest.head? = some ' ' ∨ [' ', ' '] <:+: rest := by
    rw [pair_infix_append, pair_infix_cons]
    simp
  have first (some_ : piece ≠ []) : (piece ++ ' ' :: rest).head? = piece.head? :=
    List.head?_append_of_ne_nil piece some_
  have last (some_ : rest ≠ []) : (piece ++ ' ' :: rest).getLast? = rest.getLast? := by
    rw [List.append_cons, List.getLast?_append_of_ne_nil _ some_]
  constructor
  · intro even
    have somePiece : piece ≠ [] := by
      rintro rfl
      exact even.front rfl
    have someRest : rest ≠ [] := by
      rintro rfl
      exact even.back List.getLast?_concat
    have single := even.single
    rw [pair, not_or, not_or, not_or] at single
    obtain ⟨one, back, front, other⟩ := single
    exact ⟨⟨somePiece, first somePiece ▸ even.front, back, one⟩,
      ⟨someRest, front, last someRest ▸ even.back, other⟩⟩
  · rintro ⟨one, other⟩
    refine ⟨List.append_ne_nil_of_left_ne_nil one.solid _, first one.solid ▸ one.front,
      last other.solid ▸ other.back, ?_⟩
    rw [pair, not_or, not_or, not_or]
    exact ⟨one.single, one.back, other.front, other.single⟩

/-- A text is even exactly when there is a word between any two of its spaces, in front of the
first one and behind the last. -/
theorem isEven_iff (text : Text) : IsEven text ↔ ∀ word ∈ text.splitOn ' ', word ≠ [] := by
  by_cases spaced : ' ' ∈ text
  · obtain ⟨piece, rest, rfl, _⟩ := List.eq_append_cons_of_mem spaced
    rw [isEven_append_space, List.splitOn_append_cons_self, List.forall_mem_append,
      isEven_iff piece, isEven_iff rest]
  · rw [List.splitOn_eq_singleton spaced, List.forall_mem_singleton]
    refine ⟨IsEven.solid, fun solid => ⟨solid, ?_, ?_, ?_⟩⟩
    · exact fun here => spaced (List.mem_of_head? here)
    · exact fun here => spaced (List.mem_of_getLast? here)
    · exact fun pair => spaced (pair.subset List.mem_cons_self)
termination_by text.length

/-! ### Tidy texts -/

/-- A tidy text is even, and spaces are all the white space in it. -/
structure IsTidy (text : Text) : Prop extends IsEven text where
  plain : ∀ character ∈ text, isSpace character = true → character = ' '

theorem isTidy_iff (text : Text) :
    IsTidy text ↔
      IsEven text ∧ ∀ character ∈ text, isSpace character = true → character = ' ' :=
  ⟨fun tidy => ⟨tidy.toIsEven, tidy.plain⟩, fun both => ⟨both.1, both.2⟩⟩

theorem isTidy_append_space (piece rest : Text) :
    IsTidy (piece ++ ' ' :: rest) ↔ IsTidy piece ∧ IsTidy rest := by
  rw [isTidy_iff, isTidy_iff, isTidy_iff, isEven_append_space, List.forall_mem_append,
    List.forall_mem_cons, and_iff_right (fun _ => rfl), and_and_and_comm]

theorem trim_eq_self {text : Text}
    (front : ∀ character, text.head? = some character → isSpace character = false)
    (back : ∀ character, text.getLast? = some character → isSpace character = false) :
    trim text = text := by
  have whole : trimStart text = text := by
    cases text with
    | nil => rfl
    | cons first rest =>
      exact List.dropWhile_cons_of_neg (Bool.eq_false_iff.mp (front first rfl))
  rw [trim, whole, trimEnd]
  cases text using List.reverseRecOn with
  | nil => rfl
  | append_singleton text last =>
    have letter := Bool.eq_false_iff.mp (back last List.getLast?_concat)
    rw [List.reverse_concat, List.dropWhile_cons_of_neg letter, List.reverse_cons,
      List.reverse_reverse]

/-- A tidy text begins and ends with something else than white space, so there is nothing to
trim from it. -/
theorem IsTidy.trim_eq {text : Text} (tidy : IsTidy text) : trim text = text := by
  refine trim_eq_self (fun character here => ?_) fun character here => ?_
  · refine Bool.eq_false_iff.mpr fun space => tidy.front ?_
    rw [here, tidy.plain character (List.mem_of_head? here) space]
  · refine Bool.eq_false_iff.mpr fun space => tidy.back ?_
    rw [here, tidy.plain character (List.mem_of_getLast? here) space]

theorem isSpace_head?_trim (text : Text) {character : Char}
    (here : (trim text).head? = some character) : isSpace character = false := by
  obtain ⟨tail, _, whole⟩ := exists_eq_trimEnd (trimStart text)
  refine isSpace_head?_trimStart text ?_
  rw [whole, List.head?_append, ← trim, here, Option.some_or]

theorem isSpace_getLast?_trim (text : Text) {character : Char}
    (here : (trim text).getLast? = some character) : isSpace character = false := by
  rw [trim, trimEnd, List.getLast?_reverse] at here
  have stops := List.head?_dropWhile_not isSpace (trimStart text).reverse
  rw [here] at stops
  simpa using stops

/-- What is left of a text by trimming is tidy if the text has no other white space than spaces,
and these alone. -/
theorem isTidy_trim {text : Text} (solid : trim text ≠ []) (single : ¬[' ', ' '] <:+: text)
    (plain : ∀ character ∈ text, isSpace character = true → character = ' ') :
    IsTidy (trim text) where
  solid := solid
  front here := absurd (isSpace_head?_trim text here) (by decide)
  back here := absurd (isSpace_getLast?_trim text here) (by decide)
  single pair := by
    obtain ⟨front, back, _, _, whole⟩ := exists_eq_trim text
    exact single (whole ▸ pair.trans (List.infix_append front (trim text) back))
  plain character member := plain character ((trim_sublist text).mem member)

/-! ### The words of a line -/

/-- Behind a space that has been answered no other one comes. -/
theorem head?_squeeze_true (text : Text) : (squeeze true text).head? ≠ some ' ' := by
  induction text with
  | nil => exact nofun
  | cons character rest inductionHypothesis =>
    rw [squeeze]
    split
    · exact inductionHypothesis
    · rename_i letter
      intro same
      obtain rfl : character = ' ' := Option.some.inj same
      exact letter rfl

theorem no_pair_squeeze (inRun : Bool) (text : Text) : ¬[' ', ' '] <:+: squeeze inRun text := by
  fun_induction squeeze inRun text with
  | case1 => simp
  | case2 character rest space inductionHypothesis => exact inductionHypothesis
  | case3 inRun character rest space fresh inductionHypothesis =>
    rw [pair_infix_cons, not_or, not_and]
    exact ⟨fun _ => head?_squeeze_true rest, inductionHypothesis⟩
  | case4 inRun character rest letter inductionHypothesis =>
    rw [pair_infix_cons, not_or, not_and]
    exact ⟨fun same => absurd (same ▸ isSpace_space) letter, inductionHypothesis⟩

/-- Letters are not touched. -/
theorem squeeze_append {word : Text} (letters : ∀ letter ∈ word, isSpace letter = false)
    (text : Text) : squeeze false (word ++ text) = word ++ squeeze false text := by
  induction word with
  | nil => rfl
  | cons letter word inductionHypothesis =>
    obtain ⟨first, others⟩ := List.forall_mem_cons.mp letters
    rw [List.cons_append, squeeze, if_neg (Bool.eq_false_iff.mp first),
      inductionHypothesis others, List.cons_append]

theorem getLast?_squeeze {text : Text} {last : Char} (here : text.getLast? = some last)
    (letter : isSpace last = false) (inRun : Bool) :
    (squeeze inRun text).getLast? = some last := by
  induction text generalizing inRun with
  | nil => cases here
  | cons character rest inductionHypothesis =>
    cases rest with
    | nil =>
      obtain rfl : character = last := Option.some.inj here
      rw [squeeze, if_neg (Bool.eq_false_iff.mp letter)]
      rfl
    | cons next rest =>
      rw [List.getLast?_cons_cons] at here
      have behind (inRun : Bool) := inductionHypothesis here inRun
      have more (first : Char) (inRun : Bool) :
          (first :: squeeze inRun (next :: rest)).getLast? = some last := by
        rw [List.getLast?_cons, behind, Option.getD_some]
      rw [squeeze]
      split
      · split
        · exact behind true
        · exact more ' ' true
      · exact more character false

/-- The words of a line that has any are a tidy text. -/
theorem isTidy_tidy {line : Text} (inked : line.isBlank = false) : IsTidy (tidy line) := by
  have solid : tidy line ≠ [] := by
    rw [ne_eq, tidy_eq_nil_iff, inked]
    exact Bool.false_ne_true
  have trimmed : trim line ≠ [] := by rwa [ne_eq, ← squeeze_false_eq_nil_iff]
  refine ⟨⟨solid, ?_, ?_, no_pair_squeeze _ _⟩, fun _ => eq_space_of_mem_tidy⟩
  · cases text : trim line with
    | nil => exact absurd text trimmed
    | cons first rest =>
      have letter : isSpace first = false := isSpace_head?_trim line (by rw [text]; rfl)
      rw [tidy, text, squeeze, if_neg (Bool.eq_false_iff.mp letter)]
      rintro ⟨⟩
      cases letter
  · have last := List.getLast?_eq_some_getLast trimmed
    have letter := isSpace_getLast?_trim line last
    rw [tidy, getLast?_squeeze last letter]
    intro same
    rw [Option.some.inj same] at letter
    cases letter

theorem trim_tidy (line : Text) : trim (tidy line) = tidy line := by
  cases inked : line.isBlank with
  | true => rw [(tidy_eq_nil_iff line).mpr inked]; rfl
  | false => exact (isTidy_tidy inked).trim_eq

/-! ### A word in front of a line -/

/-- White space in front of a letter becomes white space. -/
theorem exists_squeeze_append {front : Text} (blank : front.isBlank = true) {text : Text}
    (letter : ∀ character, text.head? = some character → isSpace character = false)
    (inRun : Bool) :
    ∃ gap : Text, gap.isBlank = true ∧
      squeeze inRun (front ++ text) = gap ++ squeeze false text := by
  induction front generalizing inRun with
  | nil =>
    refine ⟨[], rfl, ?_⟩
    cases text with
    | nil => rfl
    | cons first rest =>
      have solid := Bool.eq_false_iff.mp (letter first rfl)
      rw [List.nil_append, List.nil_append, squeeze, squeeze, if_neg solid, if_neg solid]
  | cons character front inductionHypothesis =>
    obtain ⟨space, spaces⟩ := List.forall_mem_cons.mp ((isBlank_iff _).mp blank)
    obtain ⟨gap, blankGap, same⟩ := inductionHypothesis ((isBlank_iff _).mpr spaces) true
    rw [List.cons_append, squeeze, if_pos space, same]
    split
    · exact ⟨gap, blankGap, rfl⟩
    · refine ⟨' ' :: gap, ?_, rfl⟩
      rw [isBlank, List.all_cons, isSpace_space, Bool.true_and]
      exact blankGap

/-- The words of a line with one more word right in front of it are that word, white space if
there is any, and the words of the line. -/
theorem exists_tidy_append {word : Text} (solid : word ≠ [])
    (letters : ∀ letter ∈ word, isSpace letter = false) (line : Text) :
    ∃ gap : Text, gap.isBlank = true ∧ tidy (word ++ line) = word ++ (gap ++ tidy line) := by
  have wordFirst (text : Text) : ∀ character, (word ++ text).head? = some character →
      isSpace character = false := by
    intro character here
    rw [List.head?_append_of_ne_nil _ solid] at here
    exact letters character (List.mem_of_head? here)
  obtain ⟨front, back, blankFront, blankBack, whole⟩ := exists_eq_trim line
  cases inked : line.isBlank with
  | true =>
    have wordLast : ∀ character, word.getLast? = some character → isSpace character = false :=
      fun character here => letters character (List.mem_of_getLast? here)
    have alone := squeeze_append letters []
    rw [List.append_nil, squeeze, List.append_nil] at alone
    refine ⟨[], rfl, ?_⟩
    rw [tidy_append_of_isBlank _ inked, (tidy_eq_nil_iff line).mpr inked, tidy,
      trim_eq_self (by simpa using wordFirst []) wordLast, alone, List.append_nil, List.append_nil]
  | false =>
    have words : trim line ≠ [] := by
      rw [ne_eq, trim_eq_nil_iff, inked]
      exact Bool.false_ne_true
    have trimmed : trim (word ++ line) = word ++ (front ++ trim line) := by
      conv_lhs => rw [whole, ← List.append_assoc, trim_append_of_isBlank _ blankBack]
      refine trim_eq_self (wordFirst _) fun character here => ?_
      rw [List.getLast?_append_of_ne_nil _ (by simp [words]),
        List.getLast?_append_of_ne_nil _ words] at here
      exact isSpace_getLast?_trim line here
    obtain ⟨gap, blankGap, same⟩ :=
      exists_squeeze_append blankFront (fun _ => isSpace_head?_trim line) false
    exact ⟨gap, blankGap, by rw [tidy, trimmed, squeeze_append letters, same, tidy]⟩

end Manuscript.Text
