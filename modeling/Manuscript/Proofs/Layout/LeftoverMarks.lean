/-
This file is about the marks of bold and italic words that are left on the page. Pairs of
underscores are taken out of a line of prose first and asterisks after that, so no asterisk
is left. Of an odd number of underscores in a row one is left over, though, and the asterisks
that are taken out may be all that stood between it and another one. Two underscores are
next to each other on the page in this case, and in no other.
-/

import Manuscript.Proofs.Aside.Seam
import Manuscript.Proofs.Layout.Content
import Manuscript.Proofs.Text.Marks
import Manuscript.Proofs.Text.Tidy

namespace Manuscript

/-! ### Underscores that are left over -/

/-- An underscore that is left over when pairs are taken out of a line: the last one of an odd
number of them in a row. -/
def IsLeftOver (text : Text) (place : Nat) : Prop :=
  text[place]? = some '_' ∧ Text.runBefore '_' text place % 2 = 0 ∧ text[place + 1]? ≠ some '_'

/-- A place in front of which there is nothing but marks from another place on. -/
def OnlyMarks (text : Text) (first second : Nat) : Prop :=
  ∀ place, first ≤ place → place < second → ∃ mark, text[place]? = some mark ∧ isMark mark = true

/-- An underscore is left over behind nothing but marks. -/
def BeginsLeftOver (line : Text) : Prop :=
  ∃ place, IsLeftOver line place ∧ OnlyMarks line 0 place

/-- Two underscores are left over that have nothing but marks between them. -/
def UnderscoresMeet (line : Text) : Prop :=
  ∃ first second, first < second ∧ IsLeftOver line first ∧ IsLeftOver line second ∧
    OnlyMarks line (first + 1) second

/-! ### In front of the rest of a line -/

section Append

variable {piece rest : Text}

/-- Behind a piece the same underscores are left over as without it, unless the piece ends in
the first half of a pair. -/
theorem isLeftOver_append
    (apart : Text.runBefore '_' piece piece.length % 2 = 0 ∨ rest.head? ≠ some '_') (place : Nat) :
    IsLeftOver (piece ++ rest) (piece.length + place) ↔ IsLeftOver rest place := by
  have behind := Text.getElem?_append_length piece rest
  rw [IsLeftOver, IsLeftOver, behind, Nat.add_assoc, behind]
  refine and_congr_right fun here => and_congr_left fun _ => ?_
  have inside : place < rest.length := (List.getElem?_eq_some_iff.mp here).1
  rw [Text.runBefore_append '_' piece rest place inside.le]
  split
  · rename_i full
    have paired : Text.runBefore '_' piece piece.length % 2 = 0 := by
      refine apart.resolve_right fun other => ?_
      rcases Nat.eq_zero_or_pos place with rfl | positive
      · exact other (by rw [List.head?_eq_getElem?, here])
      · exact other (Text.head?_of_runBefore_eq '_' rest place inside.le positive full)
    rw [full]
    omega
  · exact Iff.rfl

theorem onlyMarks_append (piece rest : Text) (first second : Nat) :
    OnlyMarks (piece ++ rest) (piece.length + first) (piece.length + second) ↔
      OnlyMarks rest first second := by
  have behind := Text.getElem?_append_length piece rest
  constructor
  · intro marks place after before
    rw [← behind]
    exact marks _ (by omega) (by omega)
  · intro marks place after before
    obtain ⟨place, rfl⟩ := Nat.exists_eq_add_of_le (Nat.le_of_add_right_le after)
    rw [behind]
    exact marks place (by omega) (by omega)

/-- A piece that no underscore is left over in has no part in where two of them meet. -/
theorem underscoresMeet_append_of_silent
    (apart : Text.runBefore '_' piece piece.length % 2 = 0 ∨ rest.head? ≠ some '_')
    (silent : ∀ place < piece.length, ¬IsLeftOver (piece ++ rest) place) :
    UnderscoresMeet (piece ++ rest) ↔ UnderscoresMeet rest := by
  constructor
  · rintro ⟨first, second, before, one, other, marks⟩
    have outside : piece.length ≤ first := Nat.le_of_not_lt fun inside => silent first inside one
    obtain ⟨first, rfl⟩ := Nat.exists_eq_add_of_le outside
    obtain ⟨second, rfl⟩ := Nat.exists_eq_add_of_le (outside.trans before.le)
    rw [isLeftOver_append apart] at one other
    rw [Nat.add_assoc, onlyMarks_append] at marks
    exact ⟨first, second, Nat.lt_of_add_lt_add_left before, one, other, marks⟩
  · rintro ⟨first, second, before, one, other, marks⟩
    rw [← isLeftOver_append apart] at one other
    rw [← onlyMarks_append piece, ← Nat.add_assoc] at marks
    exact ⟨_, _, Nat.add_lt_add_left before _, one, other, marks⟩

/-- Behind marks that no underscore is left over of, one is left over behind nothing but marks
if it is so in the rest. -/
theorem beginsLeftOver_append_of_silent
    (apart : Text.runBefore '_' piece piece.length % 2 = 0 ∨ rest.head? ≠ some '_')
    (silent : ∀ place < piece.length, ¬IsLeftOver (piece ++ rest) place)
    (onlyMarks : ∀ character ∈ piece, isMark character = true) :
    BeginsLeftOver (piece ++ rest) ↔ BeginsLeftOver rest := by
  constructor
  · rintro ⟨place, here, marks⟩
    have outside : piece.length ≤ place := Nat.le_of_not_lt fun inside => silent place inside here
    obtain ⟨place, rfl⟩ := Nat.exists_eq_add_of_le outside
    rw [isLeftOver_append apart] at here
    exact ⟨place, here, (onlyMarks_append _ _ 0 place).mp fun between after =>
      marks between (Nat.zero_le _)⟩
  · rintro ⟨place, here, marks⟩
    rw [← isLeftOver_append apart] at here
    refine ⟨_, here, fun between _ before => ?_⟩
    rcases Nat.lt_or_ge between piece.length with inside | outside
    · rw [List.getElem?_append_left inside]
      exact ⟨piece[between], List.getElem?_eq_getElem inside, onlyMarks _ (List.getElem_mem inside)⟩
    · exact (onlyMarks_append _ _ 0 place).mpr marks between outside before

/-- Where no underscore is in front of it, a line keeps those that are left over. -/
theorem underscoresMeet_append_of_free (free : '_' ∉ piece) :
    UnderscoresMeet (piece ++ rest) ↔ UnderscoresMeet rest := by
  have noRun := Text.runBefore_length_of_not_mem free
  refine underscoresMeet_append_of_silent (Or.inl (by rw [noRun])) fun place inside leftOver => ?_
  have here := leftOver.1
  rw [List.getElem?_append_left inside] at here
  exact free (List.mem_of_getElem? here)

end Append

/-- An underscore that no other one follows is left over. -/
theorem isLeftOver_single {rest : Text} (alone : rest.head? ≠ some '_') :
    IsLeftOver ('_' :: rest) 0 :=
  ⟨rfl, rfl, by rwa [List.getElem?_cons_succ, ← List.head?_eq_getElem?]⟩

theorem beginsLeftOver_single {rest : Text} (alone : rest.head? ≠ some '_') :
    BeginsLeftOver ('_' :: rest) :=
  ⟨0, isLeftOver_single alone, fun _ _ before => absurd before (Nat.not_lt_zero _)⟩

/-- A single underscore meets another one that is left over behind nothing but marks. -/
theorem underscoresMeet_single {rest : Text} (alone : rest.head? ≠ some '_') :
    UnderscoresMeet ('_' :: rest) ↔ BeginsLeftOver rest ∨ UnderscoresMeet rest := by
  have shifted := @isLeftOver_append ['_'] rest (Or.inr alone)
  have marked := onlyMarks_append ['_'] rest
  simp only [List.singleton_append, List.length_singleton, Nat.add_comm 1] at shifted marked
  constructor
  · rintro ⟨first, second, before, one, other, marks⟩
    obtain ⟨second, rfl⟩ := Nat.exists_eq_add_of_lt (Nat.zero_lt_of_lt before)
    rw [Nat.zero_add] at before other marks
    rw [shifted] at other
    cases first with
    | zero => exact Or.inl ⟨second, other, (marked 0 second).mp marks⟩
    | succ first =>
      rw [shifted] at one
      exact Or.inr ⟨first, second, Nat.lt_of_succ_lt_succ before, one, other,
        (marked _ second).mp marks⟩
  · rintro (⟨second, other, marks⟩ | ⟨first, second, before, one, other, marks⟩)
    · exact ⟨0, second + 1, Nat.succ_pos _, isLeftOver_single alone, (shifted _).mpr other,
        (marked 0 second).mpr marks⟩
    · exact ⟨first + 1, second + 1, Nat.succ_lt_succ before, (shifted _).mpr one,
        (shifted _).mpr other, (marked _ second).mpr marks⟩

theorem not_beginsLeftOver_cons {character : Char} (other : isMark character = false)
    (rest : Text) : ¬BeginsLeftOver (character :: rest) := by
  rintro ⟨place, ⟨here, _⟩, marks⟩
  cases place with
  | zero =>
    obtain rfl : character = '_' := Option.some.inj here
    cases other
  | succ place =>
    obtain ⟨mark, there, isMark⟩ := marks 0 (Nat.le_refl 0) (Nat.succ_pos place)
    obtain rfl : character = mark := Option.some.inj there
    rw [other] at isMark
    cases isMark

namespace Layout

/-! ### What is left of the marks -/

/-- No mark of an italic word is left of a line. -/
theorem asterisk_not_mem_stripEmphasis (line : Text) : '*' ∉ stripEmphasis line := by
  intro member
  exact absurd (List.mem_filter.mp member).2 (by decide)

theorem stripEmphasis_pair (rest : Text) :
    stripEmphasis ('_' :: '_' :: rest) = stripEmphasis rest := rfl

theorem stripEmphasis_asterisk (rest : Text) :
    stripEmphasis ('*' :: rest) = stripEmphasis rest := by
  rw [stripEmphasis, Text.dropPairs_cons (by decide), List.filter_cons_of_neg (by decide),
    stripEmphasis]

theorem stripEmphasis_single {rest : Text} (alone : rest.head? ≠ some '_') :
    stripEmphasis ('_' :: rest) = '_' :: stripEmphasis rest := by
  cases rest with
  | nil => rfl
  | cons next rest =>
    rw [stripEmphasis, Text.dropPairs, List.filter_cons_of_pos (by decide), stripEmphasis]
    intro further _ same
    exact alone (congrArg List.head? same)

/-- Induction along the marks of a line: over a pair of underscores, one by itself, an asterisk,
and anything else. -/
@[elab_as_elim]
theorem marks_induction {motive : Text → Prop} (line : Text)
    (pair : ∀ rest, motive rest → motive ('_' :: '_' :: rest))
    (single : ∀ rest, rest.head? ≠ some '_' → motive rest → motive ('_' :: rest))
    (asterisk : ∀ rest, motive rest → motive ('*' :: rest))
    (other : ∀ character rest, character ≠ '_' → character ≠ '*' → motive rest →
      motive (character :: rest))
    (nil : motive []) : motive line := by
  induction line using Text.dropPairs.induct with
  | case1 rest inductionHypothesis => exact pair rest inductionHypothesis
  | case2 character rest apart inductionHypothesis =>
    by_cases underscore : character = '_'
    · subst underscore
      refine single rest (fun next => ?_) inductionHypothesis
      obtain ⟨further, whole⟩ := List.head?_eq_some_iff.mp next
      exact apart further rfl whole
    · by_cases isAsterisk : character = '*'
      · exact isAsterisk ▸ asterisk rest inductionHypothesis
      · exact other character rest underscore isAsterisk inductionHypothesis
  | case3 => exact nil

/-- The text of a line begins with an underscore, or has a pair of them, exactly where
underscores are left over in the line. -/
theorem stripEmphasis_underscores (line : Text) :
    ((stripEmphasis line).head? = some '_' ↔ BeginsLeftOver line) ∧
      (['_', '_'] <:+: stripEmphasis line ↔ UnderscoresMeet line) := by
  induction line using marks_induction with
  | pair rest inductionHypothesis =>
    have paired : Text.runBefore '_' ['_', '_'] 2 % 2 = 0 ∨ rest.head? ≠ some '_' := Or.inl rfl
    have silent : ∀ place < 2, ¬IsLeftOver (['_', '_'] ++ rest) place := by
      rintro place inside ⟨_, even, alone⟩
      interval_cases place
      · exact alone rfl
      · exact absurd even (by simp [Text.runBefore])
    have begins := beginsLeftOver_append_of_silent paired silent (by simp [isMark])
    have meet := underscoresMeet_append_of_silent paired silent
    rw [stripEmphasis_pair]
    exact ⟨inductionHypothesis.1.trans begins.symm, inductionHypothesis.2.trans meet.symm⟩
  | single rest alone inductionHypothesis =>
    rw [stripEmphasis_single alone, Text.pair_infix_cons, underscoresMeet_single alone,
      inductionHypothesis.1, inductionHypothesis.2]
    exact ⟨iff_of_true rfl (beginsLeftOver_single alone), by simp⟩
  | asterisk rest inductionHypothesis =>
    have noRun : Text.runBefore '_' ['*'] 1 % 2 = 0 ∨ rest.head? ≠ some '_' := Or.inl rfl
    have silent : ∀ place < 1, ¬IsLeftOver (['*'] ++ rest) place := by
      rintro place inside ⟨here, _⟩
      interval_cases place
      exact absurd (Option.some.inj here) (by decide)
    have begins := beginsLeftOver_append_of_silent noRun silent (by simp [isMark])
    have meet := underscoresMeet_append_of_silent noRun silent
    rw [stripEmphasis_asterisk]
    exact ⟨inductionHypothesis.1.trans begins.symm, inductionHypothesis.2.trans meet.symm⟩
  | other character rest noUnderscore noAsterisk inductionHypothesis =>
    have notMark : isMark character = false := by simp [isMark, noUnderscore, noAsterisk]
    have free : '_' ∉ [character] := by simpa using Ne.symm noUnderscore
    have meet : UnderscoresMeet (character :: rest) ↔ UnderscoresMeet rest :=
      underscoresMeet_append_of_free free
    rw [stripEmphasis_cons noUnderscore noAsterisk, Text.pair_infix_cons, inductionHypothesis.2,
      meet]
    exact ⟨iff_of_false (fun same => noUnderscore (Option.some.inj same))
      (not_beginsLeftOver_cons notMark rest), by simp [noUnderscore]⟩
  | nil =>
    refine ⟨iff_of_false (by simp [stripEmphasis, Text.dropPairs]) ?_,
      iff_of_false (by simp [stripEmphasis, Text.dropPairs]) ?_⟩
    · rintro ⟨_, ⟨here, _⟩, _⟩
      cases here
    · rintro ⟨_, _, _, ⟨here, _⟩, _⟩
      cases here

theorem asterisk_not_mem_renderProse (options : Options) (context : Context) (words : Text) :
    '*' ∉ renderProse options context words :=
  asterisk_not_mem_stripEmphasis _

/-- The indent of a line has no part in where underscores meet. -/
theorem pair_infix_renderProse (options : Options) (context : Context) (words : Text) :
    ['_', '_'] <:+: renderProse options context words ↔ UnderscoresMeet words := by
  have free : '_' ∉ firstCharacters options (.ofContext context) := by
    intro member
    rcases eq_of_mem_firstCharacters member with same | same <;> exact absurd same (by decide)
  rw [renderProse, (stripEmphasis_underscores _).2, underscoresMeet_append_of_free free]

/-- A physical line of a line of prose is empty or an unbroken part of its text. -/
theorem infix_of_mem_linesOf {options : Options} {context : Context} {visible physical : Text}
    (prose : context.line = .prose) (member : physical ∈ linesOf options context visible) :
    physical <:+: renderProse options context (Text.tidy visible) := by
  rw [linesOf, prose] at member
  simp only at member
  split at member
  · cases member
  · rcases List.mem_append.mp member with padding | text
    · rw [List.eq_of_mem_replicate padding]
      exact List.nil_infix
    · rcases mem_or_eq_nil_of_mem_spaced text with inside | rfl
      · exact infix_of_mem_wrap inside
      · exact List.nil_infix

/-- No asterisk is left when the marks are taken out of a line, and two underscores are left
next to each other exactly where two that no pair takes have nothing but marks between them.
So at every line of prose, whatever there was before it, no physical line has an asterisk in
it, nor two underscores next to each other unless two meet in this way in the words of the
line. -/
theorem marks_left_of_prose (line : Text) (compiler : Compiler) (raw : Text) :
    ('*' ∉ stripEmphasis line ∧ (['_', '_'] <:+: stripEmphasis line ↔ UnderscoresMeet line)) ∧
      ((compiler.advance raw).context.line = .prose →
        ∀ physical ∈ compiler.layOut raw, '*' ∉ physical ∧
          (['_', '_'] <:+: physical → UnderscoresMeet (Text.tidy (compiler.visible raw)))) := by
  refine ⟨⟨asterisk_not_mem_stripEmphasis line, (stripEmphasis_underscores line).2⟩,
    fun prose physical member => ?_⟩
  have part := infix_of_mem_linesOf prose member
  refine ⟨fun asterisk => ?_, fun pair => ?_⟩
  · exact asterisk_not_mem_renderProse _ _ _ (part.subset asterisk)
  · exact (pair_infix_renderProse _ _ _).mp (pair.trans part)

/-- Three underscores are left over in a line of prose, each with other characters between it and
the next, and no marks but these are on the page. -/
theorem marks_left_of_prose_between_words :
    let compiler := (Compiler.new .standard .none).begin
    let raw := "___She_ *said* [aside] _no, __so__.".toList
    (compiler.advance raw).context.line = .prose ∧
      compiler.layOut raw = [[], [], "_She_ said _no, so.".toList] ∧
      ¬UnderscoresMeet (Text.tidy (compiler.visible raw)) ∧
      ∀ physical ∈ compiler.layOut raw, '*' ∉ physical ∧ ¬['_', '_'] <:+: physical := by
  intro compiler raw
  have prose : (compiler.advance raw).context.line = .prose := by decide +kernel
  obtain ⟨⟨_, pairs⟩, onPage⟩ :=
    marks_left_of_prose (Text.tidy (compiler.visible raw)) compiler raw
  have apart : ¬UnderscoresMeet (Text.tidy (compiler.visible raw)) :=
    mt pairs.mpr (by decide +kernel)
  refine ⟨prose, by decide +kernel, apart, fun physical member => ?_⟩
  obtain ⟨noAsterisk, pair⟩ := onPage prose physical member
  exact ⟨noAsterisk, mt pair apart⟩

/-- Two underscores that enclose an asterisk are no pair, but they become one when the asterisk
is taken out, and so it stands in the document. -/
theorem marks_left_of_enclosed_asterisk :
    ['_', '_'] <:+: stripEmphasis "_*_".toList ∧
      compiled .standard "_*_\n".toList = "\n\n__\n".toList := by
  decide +kernel

end Layout

end Manuscript
