/-
This file is about the lines that stripping leaves as they are. A line is bare if the only
live marks in it are closing brackets, which mean nothing where text is visible, and the bare
lines are exactly those that stripping returns unchanged. Whether a line is bare can be
followed from its beginning to its end: there is a character that completes the first live
mark, a hash or an opening bracket, and which one does depends on nothing but the hashes and
the backslashes that the line ends in so far.
-/

import Mathlib.Data.List.Induction
import Manuscript.Proofs.Aside.Reading

namespace Manuscript

namespace Text

theorem head?_of_prefix {first rest : Text} (start : first <+: rest) {character : Char}
    (here : first.head? = some character) : rest.head? = some character := by
  obtain ⟨tail, rfl⟩ := start
  rw [List.head?_append, here]
  rfl

/-! ### The run at the end of a text -/

/-- How many times the character stands at the end of a text. -/
def runAtEnd (character : Char) (text : Text) : Nat :=
  runBefore character text text.length

theorem runAtEnd_concat (character : Char) (text : Text) (last : Char) :
    runAtEnd character (text ++ [last]) =
      if last = character then runAtEnd character text + 1 else 0 := by
  simp only [runAtEnd, runBefore, List.take_length, List.reverse_concat, List.takeWhile_cons,
    beq_iff_eq]
  split <;> rfl

theorem runAtEnd_concat_self (character : Char) (text : Text) :
    runAtEnd character (text ++ [character]) = runAtEnd character text + 1 := by
  rw [runAtEnd_concat, if_pos rfl]

theorem runAtEnd_concat_of_ne {character last : Char} (differs : last ≠ character) (text : Text) :
    runAtEnd character (text ++ [last]) = 0 := by
  rw [runAtEnd_concat, if_neg differs]

theorem runAtEnd_take (character : Char) (line : Text) (place : Nat) :
    runAtEnd character (line.take place) = runBefore character line place := by
  rw [runAtEnd, runBefore, List.take_length, runBefore]

/-- Behind a text that does not end in the character, a run of it is as long as it is. -/
theorem runAtEnd_append_replicate {character : Char} {front : Text}
    (apart : runAtEnd character front = 0) (count : Nat) :
    runAtEnd character (front ++ List.replicate count character) = count := by
  induction count with
  | zero => rw [List.replicate_zero, List.append_nil, apart]
  | succ count inductionHypothesis =>
    rw [List.replicate_succ', ← List.append_assoc, runAtEnd_concat_self, inductionHypothesis]

/-- Every text divides into what stands in front of the run that it ends in, and that run. -/
theorem exists_runAtEnd (character : Char) (text : Text) :
    ∃ front, text = front ++ List.replicate (runAtEnd character text) character ∧
      runAtEnd character front = 0 := by
  induction text using List.reverseRecOn with
  | nil => exact ⟨[], rfl, rfl⟩
  | append_singleton text last inductionHypothesis =>
    by_cases same : last = character
    · obtain ⟨front, whole, apart⟩ := inductionHypothesis
      refine ⟨front, ?_, apart⟩
      rw [same, runAtEnd_concat_self, List.replicate_succ', ← List.append_assoc, ← whole]
    · refine ⟨text ++ [last], ?_, runAtEnd_concat_of_ne same text⟩
      rw [runAtEnd_concat_of_ne same, List.replicate_zero, List.append_nil]

/-- No run reaches over the end of a text that does not end in its character. -/
theorem runFrom_append_of_runAtEnd {character : Char} {front : Text} (rest : Text) {place : Nat}
    (apart : runAtEnd character front = 0) (inside : place < front.length) :
    runFrom character (front ++ rest) place = runFrom character front place := by
  have stops : ((front.drop place).takeWhile (· == character)).length ≠
      (front.drop place).length := by
    intro full
    have all := List.takeWhile_eq_self_iff.mp ((List.takeWhile_sublist _).eq_of_length full)
    rcases List.eq_nil_or_concat' front with rfl | ⟨start, last, rfl⟩
    · exact absurd inside (Nat.not_lt_zero _)
    · have within : place ≤ start.length := by
        rw [List.length_append, List.length_singleton] at inside
        omega
      have member : last ∈ (start ++ [last]).drop place := by
        rw [List.drop_append_of_le_length within]
        exact List.mem_append_right _ List.mem_cons_self
      rw [beq_iff_eq.mp (all last member), runAtEnd_concat_self] at apart
      exact absurd apart (Nat.succ_ne_zero _)
  rw [runFrom, List.drop_append_of_le_length inside.le, List.takeWhile_append, if_neg stops,
    runFrom]

end Text

namespace Mark

/-! ### The marks of a text that grows at its end -/

/-- The text has no live mark but closing brackets. -/
def IsBare (text : Text) : Prop :=
  ∀ entry ∈ ofLine text, entry.2 = closeBracket

/-- How long a run of hashes can be without a live mark in it, behind so many backslashes: a
single hash, and three further ones in front of it where a backslash escapes them. -/
def longestSilent (slashes : Nat) : Nat :=
  if slashes % 2 = 0 then 1 else 4

/-- The text ends in hashes that hold no live mark, but would with one hash more. -/
def EndsLoose (text : Text) : Prop :=
  let hashes := Text.runAtEnd '#' text
  hashes = longestSilent (Text.runBefore '\\' text (text.length - hashes))

/-- The character completes a live mark when it is put behind the text. -/
def Completes (text : Text) (character : Char) : Prop :=
  character = '#' ∧ EndsLoose text ∨ character = '[' ∧ Text.runAtEnd '\\' text % 2 = 0

theorem mem_ofLine {text : Text} {place : Nat} {mark : Mark} :
    (place, mark) ∈ ofLine text ↔ place < text.length ∧ at? text place = some mark := by
  simp [ofLine, List.mem_filterMap]

theorem isBare_iff_at? {text : Text} :
    IsBare text ↔ ∀ place < text.length, ∀ mark, at? text place = some mark →
      mark = closeBracket := by
  constructor
  · intro bare place inside mark here
    exact bare (place, mark) (mem_ofLine.mpr ⟨inside, here⟩)
  · rintro bare ⟨place, mark⟩ member
    exact bare place (mem_ofLine.mp member).1 mark (mem_ofLine.mp member).2

theorem inRun?_silent_iff (length : Nat) :
    (∀ offset < length, inRun? length offset = none) ↔ length ≤ 1 := by
  constructor
  · intro silent
    by_contra longer
    have first := silent 0 (by omega)
    obtain more | rfl : 3 ≤ length ∨ length = 2 := by omega
    · simp [inRun?, more] at first
    · simp [inRun?] at first
  · intro short offset inside
    have first : offset = 0 := by omega
    have single : length = 1 := by omega
    rw [first, single]
    rfl

theorem inRunBehind?_silent_iff (slashes length : Nat) :
    (∀ offset < length, inRunBehind? slashes length offset = none) ↔
      length ≤ longestSilent slashes := by
  by_cases paired : slashes % 2 = 0
  · simp only [inRunBehind?, longestSilent, if_pos paired, inRun?_silent_iff]
  · simp only [inRunBehind?, longestSilent, if_neg paired]
    -- Behind the three hashes that are escaped the run is read as if it began there.
    have behind := inRun?_silent_iff (length - 3)
    constructor
    · intro silent
      refine Nat.sub_le_iff_le_add.mp (behind.mp fun offset inside => ?_)
      have further := silent (offset + 3) (by omega)
      rwa [if_neg (by omega), Nat.add_sub_cancel] at further
    · intro short offset inside
      split
      · rfl
      · exact behind.mpr (by omega) (offset - 3) (by omega)

/-- Within a run of hashes there are no brackets. -/
theorem inRunBehind?_ne_bracket (slashes length offset : Nat) :
    inRunBehind? slashes length offset ≠ some openBracket ∧
      inRunBehind? slashes length offset ≠ some closeBracket := by
  simp only [inRunBehind?, inRun?]
  split_ifs <;> simp

theorem at?_append_hashes {front : Text} (apart : Text.runAtEnd '#' front = 0) {count offset : Nat}
    (inside : offset < count) :
    at? (front ++ List.replicate count '#') (front.length + offset) =
      inRunBehind? (Text.runAtEnd '\\' front) count offset := by
  have here : (front ++ List.replicate count '#')[front.length + offset]? = some '#' := by
    rw [Text.getElem?_append_length, List.getElem?_replicate, if_pos inside]
  have full : Text.runBefore '#' (List.replicate count '#') offset = offset := by
    simp [Text.runBefore, List.take_replicate, List.reverse_replicate, inside.le]
  have before : Text.runBefore '#' (front ++ List.replicate count '#') (front.length + offset) =
      offset := by
    rw [Text.runBefore_append _ _ _ _ (by rw [List.length_replicate]; exact inside.le), if_pos full]
    exact Nat.add_eq_left.mpr apart
  have behind : Text.runFrom '#' (front ++ List.replicate count '#') (front.length + offset) =
      count - offset := by
    rw [Text.runFrom_append, Text.runFrom, List.drop_replicate]
    simp
  simp only [at?, here, before, behind, Nat.add_sub_cancel,
    Text.runBefore_append_of_le '\\' front _ _ le_rfl, Text.runAtEnd]
  rw [Nat.add_sub_cancel' inside.le]

/-- A live opening bracket is a bracket behind paired backslashes. -/
theorem at?_eq_openBracket {text : Text} {place : Nat} (opens : at? text place = some openBracket) :
    text[place]? = some '[' ∧ Text.runBefore '\\' text place % 2 = 0 := by
  unfold at? at opens
  split at opens
  · exact absurd opens (inRunBehind?_ne_bracket _ _ _).1
  · rename_i here
    exact ⟨here, by simpa using opens⟩
  · simp at opens
  · contradiction

/-- A text that ends in hashes is bare if what stands in front of them is and they are few. -/
theorem isBare_append_hashes {front : Text} (apart : Text.runAtEnd '#' front = 0) (count : Nat) :
    IsBare (front ++ List.replicate count '#') ↔
      IsBare front ∧ count ≤ longestSilent (Text.runAtEnd '\\' front) := by
  have earlier (place : Nat) (inside : place < front.length) :
      at? (front ++ List.replicate count '#') place = at? front place :=
    at?_append_left inside (Text.runFrom_append_of_runAtEnd _ apart inside)
  simp only [isBare_iff_at?, List.length_append, List.length_replicate,
    ← inRunBehind?_silent_iff]
  constructor
  · intro bare
    refine ⟨fun place inside mark here => ?_, fun offset inside => ?_⟩
    · exact bare place (by omega) mark ((earlier place inside).trans here)
    · rw [Option.eq_none_iff_forall_ne_some]
      intro mark here
      have closes := bare (front.length + offset) (by omega) mark
        ((at?_append_hashes apart inside).trans here)
      exact (inRunBehind?_ne_bracket _ _ _).2 (closes ▸ here)
  · rintro ⟨bare, silent⟩ place inside mark here
    rcases Nat.lt_or_ge place front.length with within | beyond
    · exact bare place within mark ((earlier place within).symm.trans here)
    · obtain ⟨offset, rfl⟩ := Nat.exists_eq_add_of_le beyond
      rw [at?_append_hashes apart (by omega), silent offset (by omega)] at here
      contradiction

theorem endsLoose_append_hashes {front : Text} (apart : Text.runAtEnd '#' front = 0)
    (count : Nat) :
    EndsLoose (front ++ List.replicate count '#') ↔
      count = longestSilent (Text.runAtEnd '\\' front) := by
  have behind : (front ++ List.replicate count '#').length - count = front.length := by
    rw [List.length_append, List.length_replicate, Nat.add_sub_cancel]
  simp only [EndsLoose, Text.runAtEnd_append_replicate apart, behind,
    Text.runBefore_append_of_le '\\' front _ _ le_rfl]
  rfl

theorem at?_concat_end (text : Text) {last : Char} (noHash : last ≠ '#') :
    at? (text ++ [last]) text.length =
      if last = '[' ∧ Text.runAtEnd '\\' text % 2 = 0 then some openBracket
      else if last = ']' ∧ Text.runAtEnd '\\' text % 2 = 0 then some closeBracket
      else none := by
  have here : (text ++ [last])[text.length]? = some last := List.getElem?_concat_length
  have before := Text.runBefore_append_of_le '\\' text [last] text.length le_rfl
  by_cases opens : last = '['
  · subst opens
    simp [at?, before, Text.runAtEnd]
  by_cases closes : last = ']'
  · subst closes
    simp [at?, before, Text.runAtEnd]
  rw [at?_eq_none _ _ (by simpa [here] using noHash) (by simpa [here] using opens)
    (by simpa [here] using closes), if_neg (fun both => opens both.1),
    if_neg (fun both => closes both.1)]

/-- A text stays bare with one more character unless that completes a mark. -/
theorem isBare_concat (text : Text) (last : Char) :
    IsBare (text ++ [last]) ↔ IsBare text ∧ ¬Completes text last := by
  by_cases hash : last = '#'
  · subst hash
    obtain ⟨front, whole, apart⟩ := Text.exists_runAtEnd '#' text
    generalize Text.runAtEnd '#' text = count at whole
    subst whole
    rw [List.append_assoc, ← List.replicate_succ', isBare_append_hashes apart,
      isBare_append_hashes apart]
    simp only [Completes, endsLoose_append_hashes apart, true_and, Char.reduceEq, false_and,
      or_false, and_assoc]
    exact and_congr_right' Nat.lt_iff_le_and_ne
  · have earlier (place : Nat) (inside : place < text.length) :
        at? (text ++ [last]) place = at? text place :=
      at?_append_left inside (Text.runFrom_append_of_head?_ne text inside.le
        fun same => hash (Option.some.inj same))
    have silent : (∀ mark, at? (text ++ [last]) text.length = some mark → mark = closeBracket) ↔
        ¬Completes text last := by
      rw [at?_concat_end text hash]
      simp only [Completes, hash, false_and, false_or]
      split_ifs <;> simp_all
    simp only [isBare_iff_at?, List.length_append, List.length_singleton, ← silent,
      Nat.forall_lt_succ_right]
    exact and_congr_left' (forall₂_congr fun place inside => by rw [earlier place inside])

/-- A text is bare if no character of it completes a mark. -/
theorem isBare_iff (text : Text) :
    IsBare text ↔ ∀ front character back, text = front ++ character :: back →
      ¬Completes front character := by
  induction text using List.reverseRecOn with
  | nil =>
    refine iff_of_true (fun entry member => absurd member List.not_mem_nil) ?_
    intro front character back whole
    exact absurd whole.symm (by simp)
  | append_singleton text last inductionHypothesis =>
    rw [isBare_concat, inductionHypothesis]
    constructor
    · rintro ⟨bare, final⟩ front character back whole
      rcases List.eq_nil_or_concat' back with rfl | ⟨back, other, rfl⟩
      · obtain ⟨rfl, same⟩ := List.append_inj' whole rfl
        rw [← List.singleton_inj.mp same]
        exact final
      · rw [← List.cons_append, ← List.append_assoc] at whole
        exact bare front character back (List.append_inj' whole rfl).1
    · intro bare
      refine ⟨fun front character back whole => ?_, bare text last [] rfl⟩
      exact bare front character (back ++ [last]) (by rw [whole, List.append_assoc]; rfl)

end Mark

namespace Block

/-! ### Stripping a bare line -/

theorem readMarks_closeBrackets (line : Text) (place : Nat) (marks : List (Nat × Mark))
    (bare : ∀ entry ∈ marks, entry.2 = Mark.closeBracket) :
    Block.visible.readMarks line place marks = (line.drop place, .visible) := by
  induction marks with
  | nil => rfl
  | cons entry marks inductionHypothesis =>
    obtain ⟨found, mark⟩ := entry
    obtain rfl : mark = .closeBracket := bare _ List.mem_cons_self
    exact inductionHypothesis fun other member => bare other (List.mem_cons_of_mem _ member)

/-- From a place on no more is kept than stands there, if the marks come one after another. -/
theorem length_readMarks_le (line : Text) (block : Block) {place lower : Nat}
    {marks : List (Nat × Mark)} (sorted : marks.Pairwise fun entry other => entry.1 < other.1)
    (inside : ∀ entry ∈ marks, entry.1 < line.length) (ahead : ∀ entry ∈ marks, lower ≤ entry.1)
    (below : lower ≤ place) :
    (block.readMarks line place marks).1.length ≤ line.length - lower := by
  induction marks generalizing block place lower with
  | nil =>
    cases block with
    | visible =>
      rw [readMarks, List.length_drop]
      omega
    | comment | bracket => exact Nat.zero_le _
  | cons entry marks inductionHypothesis =>
    obtain ⟨found, mark⟩ := entry
    obtain ⟨later, sorted⟩ := List.pairwise_cons.mp sorted
    have within : found < line.length := inside (found, mark) List.mem_cons_self
    have past : lower ≤ found := ahead (found, mark) List.mem_cons_self
    have further := fun other member => inside other (List.mem_cons_of_mem (found, mark) member)
    -- The block stays as it is, so does the place.
    have passed (block : Block) : (block.readMarks line place marks).1.length ≤
        line.length - lower :=
      inductionHypothesis block sorted further
        (fun other member => ahead other (List.mem_cons_of_mem _ member)) below
    -- The mark is taken notice of, and the reading goes on behind it.
    have taken (block : Block) (width : Nat) :
        (block.readMarks line (found + width) marks).1.length ≤ line.length - found :=
      inductionHypothesis block sorted further (fun other member => (later other member).le)
        (Nat.le_add_right found width)
    have front : ((line.drop place).take (found - place)).length ≤ found - place :=
      List.length_take_le _ _
    cases block with
    | visible =>
      cases mark with
      | blockMark =>
        have rest := taken .comment 3
        rw [readMarks, List.length_append]
        omega
      | openBracket =>
        have rest := taken .bracket 1
        rw [readMarks, List.length_append]
        omega
      | lineMark =>
        exact front.trans (by omega)
      | closeBracket => exact passed .visible
    | comment =>
      cases mark with
      | blockMark => exact (taken .visible 3).trans (Nat.sub_le_sub_left past _)
      | lineMark | openBracket | closeBracket => exact passed .comment
    | bracket =>
      cases mark with
      | closeBracket => exact (taken .visible 1).trans (Nat.sub_le_sub_left past _)
      | blockMark | lineMark | openBracket => exact passed .bracket

/-- Something is lost of a line with a live mark that can open a block or hide the rest. -/
theorem length_readMarks_lt (line : Text) {marks : List (Nat × Mark)}
    (sorted : marks.Pairwise fun entry other => entry.1 < other.1)
    (inside : ∀ entry ∈ marks, entry.1 < line.length)
    (opens : ∃ entry ∈ marks, entry.2 ≠ Mark.closeBracket) :
    (Block.visible.readMarks line 0 marks).1.length < line.length := by
  induction marks with
  | nil =>
    obtain ⟨entry, member, _⟩ := opens
    exact absurd member List.not_mem_nil
  | cons entry marks inductionHypothesis =>
    obtain ⟨found, mark⟩ := entry
    obtain ⟨later, apart⟩ := List.pairwise_cons.mp sorted
    have within : found < line.length := inside (found, mark) List.mem_cons_self
    have further := fun other member => inside other (List.mem_cons_of_mem (found, mark) member)
    have front : (line.take found).length ≤ found := List.length_take_le _ _
    cases mark with
    | closeBracket =>
      refine inductionHypothesis apart further ?_
      obtain ⟨entry, member, differs⟩ := opens
      rcases List.mem_cons.mp member with rfl | member
      · exact absurd rfl differs
      · exact ⟨entry, member, differs⟩
    | blockMark =>
      have rest := length_readMarks_le line .comment apart further later
        (Nat.add_le_add_left (show 1 ≤ 3 by decide) found)
      rw [readMarks, List.length_append, List.drop_zero, Nat.sub_zero]
      omega
    | openBracket =>
      have rest := length_readMarks_le line .bracket apart further later (le_refl (found + 1))
      rw [readMarks, List.length_append, List.drop_zero, Nat.sub_zero]
      omega
    | lineMark =>
      exact front.trans_lt within

end Block

namespace Mark

theorem pairwise_ofLine (line : Text) :
    (ofLine line).Pairwise fun entry other => entry.1 < other.1 := by
  refine List.Pairwise.filterMap _ ?_ List.pairwise_lt_range
  intro place other before entry here otherEntry there
  obtain ⟨_, _, rfl⟩ := Option.map_eq_some_iff.mp here
  obtain ⟨_, _, rfl⟩ := Option.map_eq_some_iff.mp there
  exact before

end Mark

namespace Block

/-- Stripping leaves a visible line as it is, with no block open behind it, if and only if the
line is bare. -/
theorem strip_eq_self_iff (line : Text) :
    Block.visible.strip line = (line, .visible) ↔ Mark.IsBare line := by
  rw [strip_eq_stripByMarks, stripByMarks]
  constructor
  · intro same
    by_contra opens
    have shorter := length_readMarks_lt line (Mark.pairwise_ofLine line)
      (fun _ => Mark.lt_of_mem_ofLine) (by simpa [Mark.IsBare] using opens)
    rw [same] at shorter
    exact lt_irrefl _ shorter
  · exact readMarks_closeBrackets line 0 _

end Block

end Manuscript
