/-
This file proves that stripping a line piece by piece is the same as reading it by the
live marks on its characters. The pieces are cut without knowing which block is open,
and the marks of a place look at the whole run of hashes and backslashes around it, so
the two can only agree because there is a seam behind every piece: the longest piece
was taken. From there the proof follows the pieces, each of which is a live mark or
no mark at all.
-/

import Mathlib.Data.List.Basic
import Mathlib.Tactic.IntervalCases
import Manuscript.Proofs.Aside.Seam

namespace Manuscript

namespace Text

/-! ### What a piece is not followed by -/

theorem head?_ne {character : Char} {rest : Text}
    (differs : ∀ tail, rest = character :: tail → False) : rest.head? ≠ some character := by
  intro same
  obtain ⟨tail, rfl⟩ := List.head?_eq_some_iff.mp same
  exact differs tail rfl

theorem runFrom_le_one {character : Char} {rest : Text}
    (differs : ∀ tail, rest = character :: character :: tail → False) :
    runFrom character rest 0 ≤ 1 := by
  rcases rest with _ | ⟨first, _ | ⟨second, rest⟩⟩
  · exact Nat.zero_le 1
  · exact (List.takeWhile_sublist _).length_le
  · by_cases same : first = character
    · have other : second ≠ character := fun equal => differs rest (by rw [same, equal])
      simp [runFrom, same, other]
    · simp [runFrom, same]

end Text

namespace Mark

/-! ### Where there is a seam -/

/-- Behind a piece that ends in something other than a hash, with all its backslashes
paired, anything may follow. -/
theorem seam_of_closed {piece : Text} (rest : Text)
    (paired : Text.runBefore '\\' piece piece.length % 2 = 0)
    (noHash : Text.runBefore '#' piece piece.length = 0) : Seam piece rest where
  slashes unpaired := by omega
  hashes offset inside := by
    simp only [noHash, Nat.sub_zero, Nat.zero_add]
    rw [inRunBehind?, if_pos paired]

/-- A run of hashes may end with a piece. -/
theorem seam_of_no_hash {piece rest : Text}
    (paired : Text.runBefore '\\' piece piece.length % 2 = 0)
    (noHash : rest.head? ≠ some '#') : Seam piece rest where
  slashes unpaired := by omega
  hashes offset inside := by
    cases rest with
    | nil => exact absurd inside (Nat.not_lt_zero offset)
    | cons first rest =>
      have differs : (first == '#') = false := by
        rw [beq_eq_false_iff_ne]
        exact fun same => noHash (congrArg some same)
      simp [Text.runFrom, differs] at inside

/-- A run of hashes may be divided behind the first three, whether they are escaped or not. -/
theorem seam_of_three {piece : Text} (rest : Text)
    (paired : Text.runBefore '\\' piece piece.length % 2 = 0)
    (three : Text.runBefore '#' piece piece.length = 3) : Seam piece rest where
  slashes unpaired := by omega
  hashes offset inside := by
    simp only [three, inRunBehind?, inRun?_add_three, Nat.add_sub_cancel_left]
    rw [if_neg (show ¬ 3 + offset < 3 by omega), ite_self]

/-- A backslash may be cut off from what it does not escape. -/
theorem seam_backslash {rest : Text} (noSlash : rest.head? ≠ some '\\')
    (noOpen : rest.head? ≠ some '[') (noClose : rest.head? ≠ some ']')
    (fewHashes : Text.runFrom '#' rest 0 ≤ 1) : Seam ['\\'] rest where
  slashes _ := ⟨noSlash, noOpen, noClose⟩
  hashes offset inside := by
    have first : offset = 0 := by omega
    have single : Text.runFrom '#' rest 0 = 1 := by omega
    rw [first, single]
    rfl

/-! ### The live marks of a line, piece by piece -/

/-- A live mark as it stands behind so many further characters. -/
def shift (length : Nat) : Nat × Mark → Nat × Mark
  | (found, mark) => (length + found, mark)

theorem ofLine_append {piece rest : Text} (seam : Seam piece rest) :
    ofLine (piece ++ rest) =
      ((List.range piece.length).filterMap fun place =>
        (at? (piece ++ rest) place).map fun mark => (place, mark)) ++
      (ofLine rest).map (shift piece.length) := by
  rw [ofLine, List.length_append, List.range_add, List.filterMap_append, List.filterMap_map, ofLine,
    List.map_filterMap]
  congr 1
  refine List.filterMap_congr fun place member => ?_
  rw [Function.comp_apply, at?_append seam place (List.mem_range.mp member), Option.map_map]
  rfl

/-- The live marks behind a piece without any. -/
theorem ofLine_append_of_silent {piece rest : Text} (seam : Seam piece rest)
    (silent : ∀ place < piece.length, at? (piece ++ rest) place = none) :
    ofLine (piece ++ rest) = (ofLine rest).map (shift piece.length) := by
  have none : ((List.range piece.length).filterMap fun place =>
      (at? (piece ++ rest) place).map fun mark => (place, mark)) = [] := by
    refine List.filterMap_eq_nil_iff.mpr fun place member => ?_
    rw [silent place (List.mem_range.mp member), Option.map_none]
  rw [ofLine_append seam, none, List.nil_append]

/-- The live marks behind a piece that begins with one and has no other. -/
theorem ofLine_append_of_mark {first : Char} {piece rest : Text} {mark : Mark}
    (seam : Seam (first :: piece) rest) (here : at? (first :: piece ++ rest) 0 = some mark)
    (silent : ∀ place < piece.length, at? (first :: piece ++ rest) (place + 1) = none) :
    ofLine (first :: piece ++ rest) =
      (0, mark) :: (ofLine rest).map (shift (first :: piece).length) := by
  have none : ((List.range piece.length).map Nat.succ |>.filterMap fun place =>
      (at? (first :: piece ++ rest) place).map fun mark => (place, mark)) = [] := by
    rw [List.filterMap_map]
    refine List.filterMap_eq_nil_iff.mpr fun place member => ?_
    rw [Function.comp_apply, silent place (List.mem_range.mp member), Option.map_none]
  rw [ofLine_append seam, List.length_cons, List.range_succ_eq_map, List.filterMap_cons, here,
    none]
  rfl

end Mark

/-- The number of characters that a mark is written with. -/
def Mark.width : Mark → Nat
  | .blockMark => 3
  | .lineMark => 2
  | .openBracket | .closeBracket => 1

/-- The live mark that a piece is, if it is one. -/
def TokenKind.mark? : TokenKind → Option Mark
  | .blockMark => some .blockMark
  | .lineMark => some .lineMark
  | .openBracket => some .openBracket
  | .closeBracket => some .closeBracket
  | _ => none

namespace Block

/-! ### Reading past a piece -/

/-- A piece in front of what is kept of the rest, where the block shows it. -/
def keep (block : Block) (piece : Text) (reading : Text × Block) : Text × Block :=
  if block = .visible then (piece ++ reading.1, reading.2) else reading

/-- Reading behind a piece is reading the rest alone. -/
theorem readMarks_shift (piece rest : Text) (block : Block) (place : Nat)
    (marks : List (Nat × Mark)) :
    block.readMarks (piece ++ rest) (piece.length + place)
        (marks.map (Mark.shift piece.length)) =
      block.readMarks rest place marks := by
  induction marks generalizing block place with
  | nil => cases block <;> simp [readMarks]
  | cons first marks inductionHypothesis =>
    obtain ⟨found, mark⟩ := first
    cases block <;> cases mark <;>
      simp only [List.map_cons, Mark.shift, readMarks, Nat.add_assoc, inductionHypothesis,
        List.drop_length_add_append, Nat.add_sub_add_left]

/-- In a hidden block it does not matter where the reading has come to. -/
theorem readMarks_hidden (line : Text) (block : Block) (hidden : block ≠ .visible)
    (place other : Nat) (marks : List (Nat × Mark)) :
    block.readMarks line place marks = block.readMarks line other marks := by
  induction marks with
  | nil => cases block <;> first | contradiction | rfl
  | cons first marks inductionHypothesis =>
    obtain ⟨found, mark⟩ := first
    cases block <;> cases mark <;> first | contradiction | rfl | exact inductionHypothesis

/-- What is visible up to the next live mark can be kept a part at a time. -/
theorem readMarks_visible (line : Text) (place length : Nat) (marks : List (Nat × Mark))
    (ahead : ∀ entry ∈ marks, place + length ≤ entry.1) :
    Block.visible.readMarks line place marks =
      Block.visible.keep ((line.drop place).take length)
        (Block.visible.readMarks line (place + length) marks) := by
  have parts : ∀ found, place + length ≤ found →
      (line.drop place).take (found - place) =
        (line.drop place).take length ++
          (line.drop (place + length)).take (found - (place + length)) := by
    intro found later
    rw [← List.drop_drop, ← List.take_add]
    congr 1
    omega
  induction marks with
  | nil =>
    simp only [readMarks, keep, if_true, ← List.drop_drop, List.take_append_drop]
  | cons first marks inductionHypothesis =>
    obtain ⟨found, mark⟩ := first
    have split := parts found (ahead _ List.mem_cons_self)
    cases mark with
    | closeBracket =>
      exact inductionHypothesis fun entry member => ahead entry (List.mem_cons_of_mem _ member)
    | blockMark | openBracket | lineMark =>
      simp only [readMarks, keep, if_true, split, List.append_assoc]

/-- A piece that no mark is heeded in is kept where text is visible. -/
theorem readMarks_passed (piece rest : Text) (block : Block) (marks : List (Nat × Mark)) :
    block.readMarks (piece ++ rest) 0 (marks.map (Mark.shift piece.length)) =
      block.keep piece (block.readMarks rest 0 marks) := by
  have behind := readMarks_shift piece rest block 0 marks
  rw [Nat.add_zero] at behind
  by_cases visible : block = .visible
  · subst visible
    rw [readMarks_visible _ 0 piece.length, Nat.zero_add, behind, List.drop_zero,
      List.take_left']
    · rfl
    · intro entry member
      obtain ⟨original, _, rfl⟩ := List.mem_map.mp member
      exact Nat.zero_add _ ▸ Nat.le_add_right _ _
  · rw [readMarks_hidden _ block visible 0 piece.length, behind, keep, if_neg visible]

/-! ### One piece of a line -/

/-- Reading a piece that changes nothing. -/
theorem read_content (block : Block) (token : Token) (tokens : List Token)
    (content : token.kind.isContent = true) :
    block.read (token :: tokens) = block.keep token.lexeme (block.read tokens) := by
  obtain ⟨kind, lexeme⟩ := token
  cases block <;> cases kind <;> first | contradiction | rfl

/-- Reading a further plain character in front, whatever else is behind the pieces. -/
theorem read_consPlain_append (block : Block) (character : Char) (tokens more : List Token) :
    block.read (Token.consPlain character tokens ++ more) =
      block.keep [character] (block.read (tokens ++ more)) := by
  fun_cases Token.consPlain character tokens with
  | case1 lexeme rest =>
    rw [List.cons_append, List.cons_append, read_content _ _ _ rfl, read_content _ _ _ rfl]
    cases block <;> rfl
  | case2 => exact read_content _ _ _ rfl

theorem read_consPlain (block : Block) (character : Char) (tokens : List Token) :
    block.read (Token.consPlain character tokens) = block.keep [character] (block.read tokens) := by
  have alone := read_consPlain_append block character tokens []
  rwa [List.append_nil, List.append_nil] at alone

theorem stripByMarks_silent {piece rest : Text} (block : Block) (seam : Mark.Seam piece rest)
    (silent : ∀ place < piece.length, Mark.at? (piece ++ rest) place = none) :
    block.stripByMarks (piece ++ rest) = block.keep piece (block.stripByMarks rest) := by
  rw [stripByMarks, Mark.ofLine_append_of_silent seam silent, readMarks_passed, stripByMarks]

/-- A piece without live marks does nothing at the beginning of a line. -/
theorem read_silent {piece rest : Text} (block : Block) (seam : Mark.Seam piece rest)
    (silent : ∀ place < piece.length, Mark.at? (piece ++ rest) place = none) (kind : TokenKind)
    (content : kind.isContent = true) (tokens : List Token)
    (same : ∀ other : Block, other.read tokens = other.stripByMarks rest) :
    block.read (⟨kind, piece⟩ :: tokens) = block.stripByMarks (piece ++ rest) := by
  rw [read_content _ _ _ content, same, stripByMarks_silent block seam silent]

/-- A live mark at the beginning of a line does what its piece does. -/
theorem read_mark {first : Char} {piece rest : Text} {mark : Mark} (block : Block)
    (seam : Mark.Seam (first :: piece) rest)
    (here : Mark.at? (first :: piece ++ rest) 0 = some mark)
    (silent : ∀ place < piece.length, Mark.at? (first :: piece ++ rest) (place + 1) = none)
    (kind : TokenKind) (means : kind.mark? = some mark)
    (width : (first :: piece).length = mark.width) (tokens : List Token)
    (same : ∀ other : Block, other.read tokens = other.stripByMarks rest) :
    block.read (⟨kind, first :: piece⟩ :: tokens) =
      block.stripByMarks (first :: piece ++ rest) := by
  have passed := readMarks_passed (first :: piece) rest block (Mark.ofLine rest)
  have behind (other : Block) := readMarks_shift (first :: piece) rest other 0 (Mark.ofLine rest)
  rw [stripByMarks, Mark.ofLine_append_of_mark seam here silent]
  cases kind <;> simp only [TokenKind.mark?, Option.some.injEq, reduceCtorEq] at means <;>
    subst means <;> cases block <;> simp_all [read, readMarks, keep, stripByMarks, Mark.width]

/-! ### A whole line -/

/-- Reading the pieces of a line is reading the line by its live marks. -/
theorem read_ofLine (block : Block) (line : Text) :
    block.read (Token.ofLine line) = block.stripByMarks line := by
  -- The induction follows the pieces; behind each there is a seam, so the rest is read alone.
  fun_induction Token.ofLine line generalizing block with
  | case1 => cases block <;> rfl
  | case2 rest inductionHypothesis =>
    refine read_mark block (Mark.seam_of_three rest rfl rfl) ?_ ?_ .blockMark rfl rfl _
      inductionHypothesis
    · simp [Mark.at?, Text.runBefore, Text.runFrom, Mark.inRunBehind?, Mark.inRun?]
    · intro place (inside : place < 2)
      interval_cases place <;>
        simp [Mark.at?, Text.runBefore, Mark.inRunBehind?, Mark.inRun?]
  | case3 rest noHash inductionHypothesis =>
    have ends := Text.head?_ne noHash
    refine read_mark block (Mark.seam_of_no_hash rfl ends) ?_ ?_ .lineMark rfl rfl _
      inductionHypothesis
    · cases rest <;>
        simp_all [Mark.at?, Text.runBefore, Text.runFrom, Mark.inRunBehind?, Mark.inRun?]
    · intro place (inside : place < 1)
      interval_cases place
      simp [Mark.at?, Text.runBefore, Mark.inRunBehind?, Mark.inRun?]
  | case4 rest _ noHash inductionHypothesis =>
    have ends := Text.head?_ne noHash
    refine read_silent block (Mark.seam_of_no_hash rfl ends) ?_ .hash rfl _ inductionHypothesis
    intro place (inside : place < 1)
    interval_cases place
    cases rest <;>
      simp_all [Mark.at?, Text.runBefore, Text.runFrom, Mark.inRunBehind?, Mark.inRun?]
  | case5 rest inductionHypothesis =>
    refine read_mark block (Mark.seam_of_closed rest rfl rfl) ?_ ?_ .openBracket rfl rfl _
      inductionHypothesis
    · simp [Mark.at?, Text.runBefore]
    · exact fun place inside => absurd inside (Nat.not_lt_zero place)
  | case6 rest inductionHypothesis =>
    refine read_mark block (Mark.seam_of_closed rest rfl rfl) ?_ ?_ .closeBracket rfl rfl _
      inductionHypothesis
    · simp [Mark.at?, Text.runBefore]
    · exact fun place inside => absurd inside (Nat.not_lt_zero place)
  | case7 rest inductionHypothesis =>
    refine read_silent block (Mark.seam_of_closed rest rfl rfl) ?_ .escapedBackslash rfl _
      inductionHypothesis
    intro place (inside : place < 2)
    interval_cases place <;> simp [Mark.at?]
  | case8 rest inductionHypothesis =>
    refine read_silent block (Mark.seam_of_three rest rfl rfl) ?_ .escapedMark rfl _
      inductionHypothesis
    intro place (inside : place < 4)
    interval_cases place <;> simp [Mark.at?, Text.runBefore, Mark.inRunBehind?]
  | case9 rest noHash inductionHypothesis =>
    refine read_silent block (Mark.seam_of_no_hash rfl (Text.head?_ne noHash)) ?_ .escapedMark rfl _
      inductionHypothesis
    intro place (inside : place < 3)
    interval_cases place <;> simp [Mark.at?, Text.runBefore, Mark.inRunBehind?]
  | case10 rest inductionHypothesis | case11 rest inductionHypothesis =>
    refine read_silent block (Mark.seam_of_closed rest rfl rfl) ?_ .escapedMark rfl _
      inductionHypothesis
    intro place (inside : place < 2)
    interval_cases place <;> simp [Mark.at?, Text.runBefore]
  | case12 rest noSlash _ fewHashes noOpen noClose inductionHypothesis =>
    refine read_silent block (Mark.seam_backslash (Text.head?_ne noSlash)
      (Text.head?_ne noOpen) (Text.head?_ne noClose) (Text.runFrom_le_one fewHashes)) ?_
      .backslash rfl _ inductionHypothesis
    intro place (inside : place < 1)
    interval_cases place
    simp [Mark.at?]
  | case13 character rest _ _ hash opens closes _ _ _ _ _ slash inductionHypothesis =>
    have paired : Text.runBefore '\\' [character] 1 % 2 = 0 := by
      simp [Text.runBefore, show character ≠ '\\' from slash]
    have noHash : Text.runBefore '#' [character] 1 = 0 := by
      simp [Text.runBefore, show character ≠ '#' from hash]
    rw [read_consPlain, inductionHypothesis]
    refine (stripByMarks_silent block (Mark.seam_of_closed rest paired noHash) ?_).symm
    intro place (inside : place < 1)
    interval_cases place
    exact Mark.at?_eq_none _ _ (fun same => hash (Option.some.inj same))
      (fun same => opens (Option.some.inj same)) (fun same => closes (Option.some.inj same))

/-- A line is stripped as its live marks say, whatever block it begins in. -/
theorem strip_eq_stripByMarks (block : Block) (line : Text) :
    block.strip line = block.stripByMarks line :=
  read_ofLine block line

/-- A line without hashes and brackets opens and closes nothing. -/
theorem strip_plain (block : Block) {text : Text}
    (plain : ∀ character ∈ text, character ≠ '#' ∧ character ≠ '[' ∧ character ≠ ']') :
    block.strip text = block.keep text ([], block) := by
  have silent : Mark.ofLine text = [] := by
    refine List.filterMap_eq_nil_iff.mpr fun place _ => ?_
    have differs : ∀ character, text[place]? = some character →
        character ≠ '#' ∧ character ≠ '[' ∧ character ≠ ']' :=
      fun character here => plain character (List.mem_of_getElem? here)
    rw [Mark.at?_eq_none _ _ (fun here => (differs _ here).1 rfl)
      (fun here => (differs _ here).2.1 rfl) fun here => (differs _ here).2.2 rfl]
    rfl
  rw [strip_eq_stripByMarks, stripByMarks, silent]
  cases block with
  | visible => simp [readMarks, keep]
  | comment | bracket => rfl

/-- What has no part in any mark is kept where text is visible, and the rest is stripped as if it
stood alone. -/
theorem strip_append_of_plain (block : Block) {piece : Text}
    (plain : ∀ character ∈ piece,
      character ≠ '#' ∧ character ≠ '[' ∧ character ≠ ']' ∧ character ≠ '\\') (rest : Text) :
    block.strip (piece ++ rest) = block.keep piece (block.strip rest) := by
  have noHash := Text.runBefore_length_of_not_mem fun member => (plain '#' member).1 rfl
  have noSlash := Text.runBefore_length_of_not_mem fun member => (plain '\\' member).2.2.2 rfl
  have seam : Mark.Seam piece rest := Mark.seam_of_closed rest (by rw [noSlash]) noHash
  rw [strip_eq_stripByMarks, strip_eq_stripByMarks]
  refine stripByMarks_silent block seam fun place inside => ?_
  have differs : ∀ character, (piece ++ rest)[place]? = some character →
      character ≠ '#' ∧ character ≠ '[' ∧ character ≠ ']' ∧ character ≠ '\\' := by
    intro character here
    rw [List.getElem?_append_left inside] at here
    exact plain character (List.mem_of_getElem? here)
  exact Mark.at?_eq_none _ _ (fun here => (differs _ here).1 rfl)
    (fun here => (differs _ here).2.1 rfl) fun here => (differs _ here).2.2.1 rfl

/-- A blank line leaves every block as it was. -/
theorem strip_of_isBlank (block : Block) {line : Text} (blank : line.isBlank = true) :
    block.strip line = block.keep line ([], block) := by
  refine strip_plain block fun character member => ?_
  have space : isSpace character = true := List.all_eq_true.mp blank character member
  refine ⟨?_, ?_, ?_⟩ <;> rintro rfl <;> exact absurd space (by decide)

theorem snd_strip_of_isBlank (block : Block) {line : Text} (blank : line.isBlank = true) :
    (block.strip line).2 = block := by
  rw [strip_of_isBlank block blank, keep]
  split <;> rfl

/-- Stripping lines one after another, with open blocks carried from line to line, keeps of
every line what its live marks say, and leaves the block open that they say. -/
theorem alongLines_strip (block : Block) (lines : List Text) :
    alongLines strip block lines = alongLines stripByMarks block lines := by
  have same : strip = stripByMarks :=
    funext fun block => funext fun line => strip_eq_stripByMarks block line
  rw [same]

end Block

end Manuscript
