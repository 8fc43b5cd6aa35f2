/-
This file says what the words of a line are: its longest runs of characters other than white
space. Normalising a line takes two steps that know nothing of words. It trims white space at
both ends, and it puts one space for each run of white space that is left. What comes out is the
words of the line with single spaces between them. Everything else about normalising a line is
then about its words: it keeps them, so doing it again changes nothing, two lines come to the
same exactly if they have the same words, and the words of two lines with white space in between
are those of the one and then those of the other.
-/

import Manuscript.Proofs.Text.Tidy

namespace Manuscript.Text

/-! ### The words of a text -/

/-- The words of a text, from left to right: what stands between its white space, where anything
does. -/
def words (text : Text) : List Text :=
  (text.splitOnP isSpace).filter fun part => !part.isEmpty

/-- A text has these as its longest runs of characters other than white space, from left to
right. In front of a run there is nothing but white space since the one before, and behind it
the text ends or goes on with white space. -/
inductive HasRuns : Text → List Text → Prop
  | none {gap : Text} (blank : gap.isBlank = true) : HasRuns gap []
  | next {gap run rest : Text} {runs : List Text} (blank : gap.isBlank = true) (solid : run ≠ [])
      (letters : ∀ letter ∈ run, isSpace letter = false)
      (ends : ∀ character, rest.head? = some character → isSpace character = true)
      (behind : HasRuns rest runs) : HasRuns (gap ++ (run ++ rest)) (run :: runs)

/-- White space divides the words of a text. -/
theorem words_append_cons (front back : Text) {character : Char}
    (space : isSpace character = true) :
    words (front ++ character :: back) = words front ++ words back := by
  rw [words, List.splitOnP_append_cons front back space, List.filter_append, words, words]

theorem words_nil : words [] = [] := by
  rw [words, List.splitOnP_nil]
  rfl

theorem words_cons_space (text : Text) {character : Char} (space : isSpace character = true) :
    words (character :: text) = words text := by
  rw [← List.nil_append (character :: text), words_append_cons [] text space, words_nil,
    List.nil_append]

theorem words_append_of_isBlank {gap : Text} (blank : gap.isBlank = true) (text : Text) :
    words (gap ++ text) = words text := by
  induction gap with
  | nil => rfl
  | cons character gap inductionHypothesis =>
    obtain ⟨space, spaces⟩ := List.forall_mem_cons.mp ((isBlank_iff _).mp blank)
    rw [List.cons_append, words_cons_space _ space,
      inductionHypothesis ((isBlank_iff gap).mpr spaces)]

theorem words_of_isBlank {text : Text} (blank : text.isBlank = true) : words text = [] := by
  rw [← List.append_nil text, words_append_of_isBlank blank, words_nil]

/-- The words of two texts with white space in between are those of the one and those of the
other. -/
theorem words_append_gap (front back : Text) {gap : Text} (some_ : gap ≠ [])
    (blank : gap.isBlank = true) : words (front ++ (gap ++ back)) = words front ++ words back := by
  obtain ⟨character, gap, rfl⟩ := List.exists_cons_of_ne_nil some_
  obtain ⟨space, spaces⟩ := List.forall_mem_cons.mp ((isBlank_iff _).mp blank)
  rw [List.cons_append, words_append_cons front _ space,
    words_append_of_isBlank ((isBlank_iff gap).mpr spaces)]

theorem words_run {run : Text} (solid : run ≠ [])
    (letters : ∀ letter ∈ run, isSpace letter = false) : words run = [run] := by
  rw [words, List.splitOnP_eq_singleton letters, List.filter_singleton,
    List.isEmpty_eq_false_iff.mpr solid]
  rfl

/-! ### The words are the longest runs -/

theorem HasRuns.words_eq {text : Text} {runs : List Text} (hasRuns : HasRuns text runs) :
    words text = runs := by
  induction hasRuns with
  | none blank => exact words_of_isBlank blank
  | @next gap run rest runs blank solid letters ends behind inductionHypothesis =>
    rw [words_append_of_isBlank blank]
    cases rest with
    | nil =>
      rw [words_nil] at inductionHypothesis
      rw [List.append_nil, words_run solid letters, ← inductionHypothesis]
    | cons character rest =>
      have space := ends character rfl
      rw [words_cons_space rest space] at inductionHypothesis
      rw [words_append_cons run rest space, words_run solid letters, inductionHypothesis]
      rfl

/-- A text that begins with a letter begins with a run. -/
theorem exists_run {first : Char} (letter : isSpace first = false) (text : Text) :
    ∃ run rest : Text, first :: text = run ++ rest ∧ run ≠ [] ∧
      (∀ letter ∈ run, isSpace letter = false) ∧
      ∀ character, rest.head? = some character → isSpace character = true := by
  refine ⟨first :: text.takeWhile fun character => !isSpace character,
    text.dropWhile fun character => !isSpace character, ?_, List.cons_ne_nil _ _, ?_, ?_⟩
  · rw [List.cons_append, List.takeWhile_append_dropWhile]
  · refine List.forall_mem_cons.mpr ⟨letter, fun other member => ?_⟩
    have solid := List.mem_takeWhile_imp member
    rwa [Bool.not_eq_true'] at solid
  · intro character here
    have stops := List.head?_dropWhile_not (fun character => !isSpace character) text
    rw [here] at stops
    simpa using stops

/-- Every text divides into runs. -/
theorem exists_hasRuns (text : Text) : ∃ runs, HasRuns text runs := by
  by_cases blank : text.isBlank = true
  · exact ⟨[], .none blank⟩
  · obtain ⟨first, behind, inked⟩ := List.exists_cons_of_ne_nil fun empty =>
      blank ((trimStart_eq_nil_iff text).mp empty)
    have letter : isSpace first = false := isSpace_head?_trimStart text (by rw [inked]; rfl)
    obtain ⟨run, rest, parted, solid, letters, ends⟩ := exists_run letter behind
    have whole : text.takeWhile isSpace ++ (run ++ rest) = text := by
      rw [← parted, ← inked]
      exact List.takeWhile_append_dropWhile
    have shorter : rest.length < text.length := by
      have some_ := List.length_pos_of_ne_nil solid
      rw [← whole, List.length_append, List.length_append]
      omega
    obtain ⟨runs, hasRuns⟩ := exists_hasRuns rest
    have divided := HasRuns.next (isBlank_takeWhile text) solid letters ends hasRuns
    rw [whole] at divided
    exact ⟨run :: runs, divided⟩
termination_by text.length

/-- A text has its words as its longest runs, and no others. -/
theorem hasRuns_iff (text : Text) (runs : List Text) : HasRuns text runs ↔ runs = words text := by
  obtain ⟨found, hasRuns⟩ := exists_hasRuns text
  constructor
  · exact fun others => others.words_eq.symm
  · rintro rfl
    rwa [hasRuns.words_eq]

theorem HasRuns.solid {text : Text} {runs : List Text} (hasRuns : HasRuns text runs) :
    ∀ run ∈ runs, run ≠ [] ∧ ∀ letter ∈ run, isSpace letter = false := by
  induction hasRuns with
  | none _ => exact List.forall_mem_nil _
  | next _ solid letters _ _ inductionHypothesis =>
    exact List.forall_mem_cons.mpr ⟨⟨solid, letters⟩, inductionHypothesis⟩

theorem HasRuns.isBlank {text : Text} (hasRuns : HasRuns text []) : text.isBlank = true := by
  cases hasRuns with
  | none blank => exact blank

/-! ### Normalising -/

/-- A run of white space that has been answered by its space leaves nothing more. -/
theorem squeeze_true_append {gap : Text} (blank : gap.isBlank = true) (text : Text) :
    squeeze true (gap ++ text) = squeeze true text := by
  induction gap with
  | nil => rfl
  | cons character gap inductionHypothesis =>
    obtain ⟨space, spaces⟩ := List.forall_mem_cons.mp ((isBlank_iff _).mp blank)
    rw [List.cons_append, squeeze, if_pos space, if_pos rfl,
      inductionHypothesis ((isBlank_iff gap).mpr spaces)]

/-- In front of a letter it makes no difference whether a run has been answered. -/
theorem squeeze_true_eq {text : Text}
    (letter : ∀ character, text.head? = some character → isSpace character = false) :
    squeeze true text = squeeze false text := by
  cases text with
  | nil => rfl
  | cons first rest =>
    have solid := Bool.eq_false_iff.mp (letter first rfl)
    rw [squeeze, squeeze, if_neg solid, if_neg solid]

/-- A blank text that does not end in white space is empty. -/
theorem eq_nil_of_isBlank {text : Text} (blank : text.isBlank = true)
    (last : ∀ character, text.getLast? = some character → isSpace character = false) :
    text = [] := by
  by_contra some_
  have letter := last _ (List.getLast?_eq_some_getLast some_)
  rw [(isBlank_iff text).mp blank _ (List.getLast_mem some_)] at letter
  cases letter

/-- Where a run of white space that a text begins with is passed over, and the text does not end
in one, what each run of white space becomes a space in is the runs of letters with single spaces
in between. -/
theorem HasRuns.squeeze_eq {text : Text} {runs : List Text} (hasRuns : HasRuns text runs)
    (last : ∀ character, text.getLast? = some character → isSpace character = false) :
    squeeze true text = [' '].intercalate runs := by
  induction hasRuns with
  | none blank =>
    rw [eq_nil_of_isBlank blank last]
    rfl
  | @next gap run rest runs blank solid letters ends behind inductionHypothesis =>
    have first : ∀ character, (run ++ rest).head? = some character →
        isSpace character = false := by
      intro character here
      rw [List.head?_append_of_ne_nil run solid] at here
      exact letters character (List.mem_of_head? here)
    rw [squeeze_true_append blank, squeeze_true_eq first, squeeze_append letters]
    cases rest with
    | nil =>
      obtain rfl : runs = [] := by rw [← behind.words_eq, words_nil]
      rw [squeeze, List.append_nil, List.intercalate_singleton]
    | cons character rest =>
      have space := ends character rfl
      have lastRest : ∀ other, (character :: rest).getLast? = some other →
          isSpace other = false := by
        intro other here
        refine last other ?_
        rw [List.getLast?_append_of_ne_nil _ (by simp), List.getLast?_append_cons, here]
      have more : runs ≠ [] := by
        rintro rfl
        exact List.cons_ne_nil _ _ (eq_nil_of_isBlank behind.isBlank lastRest)
      have passed := inductionHypothesis lastRest
      rw [squeeze, if_pos space, if_pos rfl] at passed
      rw [squeeze, if_pos space, if_neg Bool.false_ne_true, passed,
        List.intercalate_cons_of_ne_nil more, List.append_assoc]
      rfl

/-- Trimming a text does not touch its words. -/
theorem words_trim (text : Text) : words (trim text) = words text := by
  obtain ⟨front, back, blankFront, blankBack, whole⟩ := exists_eq_trim text
  conv_rhs => rw [whole, List.append_assoc, words_append_of_isBlank blankFront]
  cases back with
  | nil => rw [List.append_nil]
  | cons character back =>
    have behind := words_append_gap (trim text) [] (List.cons_ne_nil character back) blankBack
    rw [List.append_nil, words_nil, List.append_nil] at behind
    exact behind.symm

/-- A normalised line is its words with single spaces in between. -/
theorem tidy_eq_intercalate (line : Text) : tidy line = [' '].intercalate (words line) := by
  have hasRuns : HasRuns (trim line) (words line) := by
    rw [hasRuns_iff, words_trim]
  rw [tidy, ← squeeze_true_eq fun _ => isSpace_head?_trim line]
  exact hasRuns.squeeze_eq fun _ => isSpace_getLast?_trim line

/-- Runs of letters with single spaces in between are read as they were put together. -/
theorem words_intercalate {runs : List Text}
    (solid : ∀ run ∈ runs, run ≠ [] ∧ ∀ letter ∈ run, isSpace letter = false) :
    words ([' '].intercalate runs) = runs := by
  induction runs with
  | nil => exact words_nil
  | cons run runs inductionHypothesis =>
    obtain ⟨first, others⟩ := List.forall_mem_cons.mp solid
    cases runs with
    | nil => rw [List.intercalate_singleton, words_run first.1 first.2]
    | cons next runs =>
      rw [List.intercalate_cons_cons, List.append_assoc, List.singleton_append,
        words_append_cons run _ isSpace_space, words_run first.1 first.2,
        inductionHypothesis others]
      rfl

/-- A line has the same words when it is normalised. -/
theorem words_tidy (line : Text) : words (tidy line) = words line := by
  rw [tidy_eq_intercalate]
  exact words_intercalate ((hasRuns_iff line _).mpr rfl).solid

/-- The normal form of a line. A line has its words as its longest runs of characters other than
white space, and when it is normalised it is they with single spaces in between. So normalising
changes nothing about a normalised line, two lines come to the same exactly if they have the same
words, and two lines with white space in between come to what their normalised forms come to with
a space in between. -/
theorem tidy_normal_form (line : Text) :
    (∀ runs, HasRuns line runs ↔ runs = words line) ∧
      tidy line = [' '].intercalate (words line) ∧
      tidy (tidy line) = tidy line ∧
      (∀ other, tidy line = tidy other ↔ words line = words other) ∧
      ∀ gap back : Text, gap ≠ [] → gap.isBlank = true →
        tidy (line ++ gap ++ back) = tidy (tidy line ++ ' ' :: tidy back) := by
  refine ⟨hasRuns_iff line, tidy_eq_intercalate line, ?_,
    fun other => ⟨fun same => ?_, fun same => ?_⟩, fun gap back some_ blank => ?_⟩
  · rw [tidy_eq_intercalate (tidy line), words_tidy, tidy_eq_intercalate]
  · rw [← words_tidy line, same, words_tidy]
  · rw [tidy_eq_intercalate, same, ← tidy_eq_intercalate]
  · rw [tidy_eq_intercalate, tidy_eq_intercalate (tidy line ++ _), List.append_assoc,
      words_append_gap line back some_ blank, words_append_cons _ _ isSpace_space, words_tidy,
      words_tidy]

/-- A tab and a wide space are white space like any other, and so is a line feed between two
lines. -/
theorem tidy_normal_form_of_wide_space :
    let gap : Text := ['\n', '\u3000']
    gap ≠ [] ∧ gap.isBlank = true ∧
      tidy ("\tno  way ".toList ++ gap ++ " out\n".toList) =
        tidy (tidy "\tno  way ".toList ++ ' ' :: tidy " out\n".toList) ∧
      tidy ("\tno  way ".toList ++ gap ++ " out\n".toList) = "no way out".toList := by
  intro gap
  have some_ : gap ≠ [] := List.cons_ne_nil _ _
  have blank : gap.isBlank = true := by decide
  exact ⟨some_, blank, (tidy_normal_form _).2.2.2.2 gap _ some_ blank, by decide⟩

end Manuscript.Text
