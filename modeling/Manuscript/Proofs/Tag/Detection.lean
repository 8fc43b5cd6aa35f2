/-
This file proves that a line declares the same tag in lower case as it does when it is
read as it is written. A context looks for tags in the lower case of a line, and a page
takes them off the line itself, so the two would disagree if lower-casing could make a
tag's word or spoil one. It cannot: the only letters that become ASCII letters are the
kelvin sign, whose `k` no tag is written with, and the dotted capital, which leaves a
dot behind its `i` where every tag goes on with a letter.

White space at the end of a line makes no difference to its tag either: no tag is written
with any.
-/

import Manuscript.Proofs.Text.LowerCase
import Manuscript.Proofs.Text.Space
import Manuscript.Tag

namespace Manuscript

/-! ### White space and hyphens -/

/-- The characters of a section break and what may stand around it. -/
def isRule (character : Char) : Bool :=
  isSpace character || character == '-'

theorem isRule_iff (character : Char) :
    isRule character = true ↔ isSpace character = true ∨ character = '-' := by
  rw [isRule, Bool.or_eq_true, beq_iff_eq]

theorem LowersTo.eq_of_isRule {character : Char} {form : Text} (here : LowersTo character form)
    (rule : isRule character = true) : form = [character] := by
  rw [isRule_iff] at rule
  cases here with
  | ascii small =>
    rcases rule with space | rfl
    · rw [(toLower_of_ascii small).2.2.2.1 space]
    · rfl
  | dotted code =>
    rw [show character = Char.ofNat 0x130 by rw [← code, Char.ofNat_toNat]] at rule
    exact absurd rule (by decide)
  | kelvin code =>
    rw [show character = Char.ofNat 0x212A by rw [← code, Char.ofNat_toNat]] at rule
    exact absurd rule (by decide)
  | other form large formLarge sameSpace fixed =>
    rcases rule with space | rfl
    · rw [fixed space]
    · exact absurd large (by decide)

theorem LowersTo.eq_of_form_isRule {character : Char} {form : Text}
    (here : LowersTo character form) (rule : ∀ letter ∈ form, isRule letter = true) :
    form = [character] := by
  cases here with
  | ascii small =>
    obtain ⟨_, _, sameSpace, fixed, hyphen⟩ := toLower_of_ascii small
    rcases (isRule_iff _).mp (rule _ List.mem_cons_self) with space | same
    · rw [fixed (sameSpace ▸ space)]
    · rw [same, hyphen same]
  | dotted code => exact absurd (rule 'i' List.mem_cons_self) (by decide)
  | kelvin code => exact absurd (rule 'k' List.mem_cons_self) (by decide)
  | other form large formLarge sameSpace fixed =>
    rcases (isRule_iff _).mp (rule _ List.mem_cons_self) with space | same
    · rw [fixed (sameSpace ▸ space)]
    · rw [same] at formLarge
      exact absurd formLarge (by decide)

theorem Lowers.eq_of_isRule {text small : Text} (lowers : Lowers text small)
    (rule : ∀ character ∈ text, isRule character = true) : small = text := by
  induction lowers with
  | nil => rfl
  | cons here behind inductionHypothesis =>
    rw [here.eq_of_isRule (rule _ List.mem_cons_self),
      inductionHypothesis fun character member => rule character (List.mem_cons_of_mem _ member)]
    rfl

theorem Lowers.eq_of_lower_isRule {text small : Text} (lowers : Lowers text small)
    (rule : ∀ character ∈ small, isRule character = true) : small = text := by
  induction lowers with
  | nil => rfl
  | cons here behind inductionHypothesis =>
    rw [here.eq_of_form_isRule fun letter member => rule letter (List.mem_append_left _ member),
      inductionHypothesis fun letter member => rule letter (List.mem_append_right _ member)]
    rfl

theorem isRule_of_trim_eq {text : Text} (hyphens : Text.trim text = Tag.sectionBreak.literal) :
    ∀ character ∈ text, isRule character = true := by
  obtain ⟨front, back, blankFront, blankBack, whole⟩ := Text.exists_eq_trim text
  have literal : Tag.sectionBreak.literal.all isRule = true := rfl
  intro character member
  rw [whole, hyphens, List.mem_append, List.mem_append] at member
  rcases member with (inFront | inside) | inBack
  · exact (isRule_iff _).mpr (Or.inl ((Text.isBlank_iff _).mp blankFront _ inFront))
  · exact List.all_eq_true.mp literal character inside
  · exact (isRule_iff _).mpr (Or.inl ((Text.isBlank_iff _).mp blankBack _ inBack))

/-- A line is a section break exactly when its lower case is. -/
theorem Lowers.trim_eq_iff {text small : Text} (lowers : Lowers text small) :
    Text.trim small = Tag.sectionBreak.literal ↔ Text.trim text = Tag.sectionBreak.literal := by
  constructor
  · intro hyphens
    rwa [lowers.eq_of_lower_isRule (isRule_of_trim_eq hyphens)] at hyphens
  · intro hyphens
    rwa [lowers.eq_of_isRule (isRule_of_trim_eq hyphens)]

/-! ### The words of the other tags -/

/-- A word that lower-casing neither makes nor spoils: it is in ASCII, has no `k`, and does not
end in `i`. -/
def isSteady (word : Text) : Bool :=
  word.all (fun letter => letter.toNat < 0x80 && letter != 'k') && word.getLast? != some 'i'

theorem isSteady_cons {letter : Char} {word : Text} (steady : isSteady (letter :: word) = true) :
    letter.toNat < 0x80 ∧ letter ≠ 'k' ∧ (word = [] → letter ≠ 'i') ∧ isSteady word = true := by
  simp only [isSteady, List.all_cons, Bool.and_eq_true, decide_eq_true_eq, bne_iff_ne, ne_eq]
    at steady ⊢
  obtain ⟨⟨⟨small, other⟩, letters⟩, ends⟩ := steady
  refine ⟨small, other, ?_, letters, ?_⟩
  · rintro rfl rfl
    exact ends rfl
  · intro last
    cases word with
    | nil => cases last
    | cons next word => exact ends (by rw [List.getLast?_cons_cons, last])

theorem ascii_of_isSteady {word : Text} (steady : isSteady word = true) :
    ∀ letter ∈ word, letter.toNat < 0x80 := by
  simp only [isSteady, Bool.and_eq_true, List.all_eq_true, decide_eq_true_eq] at steady
  exact fun letter member => (steady.1 letter member).1

/-- A line begins with a steady word exactly when its lower case does. -/
theorem Lowers.take_eq_iff {text small : Text} (lowers : Lowers text small) (word : Text)
    (steady : isSteady word = true) :
    Text.lowerAscii (small.take word.length) = word ↔
      Text.lowerAscii (text.take word.length) = word := by
  induction word generalizing text small with
  | nil => exact Iff.rfl
  | cons letter word inductionHypothesis =>
    obtain ⟨ascii, notKelvin, notLast, further⟩ := isSteady_cons steady
    have large : ∀ character : Char, 0x80 ≤ character.toNat → character.toLower ≠ letter := by
      intro character outside same
      rw [toLower_of_not_ascii outside] at same
      exact absurd ascii (Nat.not_lt.mpr (same ▸ outside))
    cases lowers with
    | nil => exact Iff.rfl
    | @cons character form rest small here behind =>
      have next := inductionHypothesis behind further
      simp only [Text.lowerAscii] at next ⊢
      cases here with
      | ascii inAscii =>
        simp only [List.singleton_append, List.length_cons, List.take_succ_cons, List.map_cons,
          List.cons.injEq, (toLower_of_ascii inAscii).2.1, next]
      | kelvin code =>
        refine iff_of_false ?_ ?_
        · intro same
          exact notKelvin (List.cons.inj same).1.symm
        · intro same
          exact large character (by omega) (List.cons.inj same).1
      | other form outside formOutside _ _ =>
        refine iff_of_false ?_ ?_
        · intro same
          exact large form formOutside (List.cons.inj same).1
        · intro same
          exact large character outside (List.cons.inj same).1
      | dotted code =>
        refine iff_of_false ?_ ?_
        · -- The dot behind the `i` would have to be the next letter of the word.
          intro same
          obtain ⟨first, behindFirst⟩ := List.cons.inj same
          cases word with
          | nil => exact notLast rfl first.symm
          | cons second word =>
            have dot := (List.cons.inj behindFirst).1
            have small := (isSteady_cons further).1
            rw [← dot] at small
            exact absurd small (by decide)
        · intro same
          exact large character (by omega) (List.cons.inj same).1

/-! ### Detection -/

namespace Tag

theorem isSteady_literal (tag : Tag) : isSteady tag.literal = true := by
  cases tag <;> decide

theorem isSome_restAfter? (tag : Tag) (line : Text) :
    (tag.restAfter? line).isSome = true ↔
      Text.lowerAscii (line.take tag.literal.length) = tag.literal := by
  unfold restAfter?
  split
  · exact iff_of_true rfl ‹_›
  · exact iff_of_false Bool.false_ne_true ‹_›

theorem matchesLine_lower (tag : Tag) (line : Text) :
    tag.matchesLine (Text.lower line) = tag.matchesLine line := by
  have word := (lowers_lower line).take_eq_iff tag.literal (isSteady_literal tag)
  rw [← isSome_restAfter?, ← isSome_restAfter?] at word
  cases tag with
  | sectionBreak =>
    rw [Bool.eq_iff_iff, matchesLine, matchesLine, beq_iff_eq, beq_iff_eq]
    exact (lowers_lower line).trim_eq_iff
  | author | chapter | sectionTag | title => exact Bool.eq_iff_iff.mpr word

theorem detect?_congr {line other : Text}
    (same : ∀ tag : Tag, tag.matchesLine line = tag.matchesLine other) :
    detect? line = detect? other := by
  unfold detect?
  congr 1
  funext tag
  exact same tag

/-- The lower case of a line declares the tag that the line declares. -/
theorem detect?_lower (line : Text) : detect? (Text.lower line) = detect? line :=
  detect?_congr fun tag => matchesLine_lower tag line

end Tag

/-! ### White space at the end of a line -/

/-- White space behind a line does not complete a word that has none in it. -/
theorem Text.take_append_eq_iff (line : Text) {tail : Text} (blank : tail.isBlank = true)
    (word : Text) (solid : ∀ letter ∈ word, isSpace letter = false) :
    lowerAscii ((line ++ tail).take word.length) = word ↔
      lowerAscii (line.take word.length) = word := by
  induction word generalizing line with
  | nil => exact Iff.rfl
  | cons letter word inductionHypothesis =>
    cases line with
    | nil =>
      refine iff_of_false (fun same => ?_) (List.cons_ne_nil _ _).symm
      cases tail with
      | nil => cases same
      | cons character tail =>
        have space : isSpace character = true := (isBlank_iff _).mp blank _ List.mem_cons_self
        have here : character.toLower = letter := (List.cons.inj same).1
        rw [toLower_of_isSpace space] at here
        rw [here, solid letter List.mem_cons_self] at space
        cases space
    | cons character line =>
      have next := inductionHypothesis line fun other member =>
        solid other (List.mem_cons_of_mem _ member)
      simp only [lowerAscii] at next ⊢
      simp only [List.cons_append, List.length_cons, List.take_succ_cons, List.map_cons,
        List.cons.injEq, next]

namespace Tag

theorem isSpace_of_mem_literal (tag : Tag) : ∀ letter ∈ tag.literal, isSpace letter = false := by
  have solid : tag.literal.all (fun letter => !isSpace letter) = true := by
    cases tag <;> rfl
  simpa using solid

theorem matchesLine_append_of_isBlank (tag : Tag) (line : Text) {tail : Text}
    (blank : tail.isBlank = true) : tag.matchesLine (line ++ tail) = tag.matchesLine line := by
  have word := Text.take_append_eq_iff line blank tag.literal tag.isSpace_of_mem_literal
  rw [← isSome_restAfter?, ← isSome_restAfter?] at word
  cases tag with
  | sectionBreak => rw [matchesLine, matchesLine, Text.trim_append_of_isBlank line blank]
  | author | chapter | sectionTag | title => exact Bool.eq_iff_iff.mpr word

theorem detect?_append_of_isBlank (line : Text) {tail : Text} (blank : tail.isBlank = true) :
    detect? (line ++ tail) = detect? line :=
  detect?_congr fun tag => matchesLine_append_of_isBlank tag line blank

end Tag

end Manuscript
