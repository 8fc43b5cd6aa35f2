/-
This file says how the words of a settings file are recognised. A word is compared in
lower case, by the rules for all letters, but this is no wider than making capitals of
its ASCII letters small: no other letter turns into one that a word is written with. So
each word stands for what it names in any mixture of capitals and small letters, and
nothing else does.
-/

import Manuscript.Proofs.Tag.Detection
import Manuscript.Settings.Options

namespace Manuscript

theorem LowersTo.eq_of_ascii {character : Char} {form : Text} (here : LowersTo character form)
    (ascii : character.toNat < 0x80) : form = [character.toLower] := by
  cases here with
  | ascii _ => rfl
  | dotted code | kelvin code => omega
  | other form large _ _ _ => omega

theorem LowersTo.length_pos {character : Char} {form : Text} (here : LowersTo character form) :
    0 < form.length := by
  cases here <;> exact Nat.zero_lt_succ _

theorem Lowers.length_le {text small : Text} (lowers : Lowers text small) :
    text.length ≤ small.length := by
  induction lowers with
  | nil => exact le_rfl
  | cons here behind inductionHypothesis =>
    have front := here.length_pos
    rw [List.length_cons, List.length_append]
    omega

/-- A text in ASCII has its ASCII letters lowered and nothing else. -/
theorem Lowers.eq_lowerAscii {text small : Text} (lowers : Lowers text small)
    (ascii : ∀ character ∈ text, character.toNat < 0x80) : small = Text.lowerAscii text := by
  induction lowers with
  | nil => rfl
  | cons here behind inductionHypothesis =>
    obtain ⟨first, others⟩ := List.forall_mem_cons.mp ascii
    rw [here.eq_of_ascii first, inductionHypothesis others]
    rfl

/-- A text is a word in lower case exactly if it is the word but for the case of its letters. -/
theorem lower_eq_iff (text : Text) {word : Text} (steady : isSteady word = true)
    (small : Text.lowerAscii word = word) :
    Text.lower text = word ↔ Text.lowerAscii text = word := by
  have lowers := lowers_lower text
  constructor
  · intro same
    rw [same] at lowers
    have short : text.length ≤ word.length := lowers.length_le
    have front := (lowers.take_eq_iff word steady).mp (by rw [List.take_length, small])
    rwa [List.take_of_length_le short] at front
  · intro same
    have ascii := ascii_of_lowerAscii (same ▸ ascii_of_isSteady steady)
    rw [lowers.eq_lowerAscii ascii, same]

/-! ### The words for spacing and layout -/

/-- The word for a spacing. -/
def Spacing.word : Spacing → Text
  | single => "single".toList
  | singlePlus => "single+".toList
  | double => "double".toList

/-- The word for a layout of paragraphs. -/
def Mode.word : Mode → Text
  | prose => "prose".toList
  | justified => "justified".toList

theorem Spacing.lower_eq_word_iff (text : Text) (spacing : Spacing) :
    Text.lower text = spacing.word ↔ Text.lowerAscii text = spacing.word := by
  cases spacing <;> exact lower_eq_iff text (by decide) (by decide)

theorem Mode.lower_eq_word_iff (text : Text) (mode : Mode) :
    Text.lower text = mode.word ↔ Text.lowerAscii text = mode.word := by
  cases mode <;> exact lower_eq_iff text (by decide) (by decide)

/-- A text asks for a spacing exactly if it is the word for it in any case. -/
theorem Spacing.ofWord?_eq_some_iff (text : Text) (spacing : Spacing) :
    ofWord? text = some spacing ↔ Text.lowerAscii text = spacing.word := by
  rw [← lower_eq_word_iff, ofWord?]
  constructor
  · intro found
    split at found
    · cases found; assumption
    · split at found
      · cases found; assumption
      · split at found
        · cases found; assumption
        · cases found
  · intro same
    rw [same]
    cases spacing <;> decide

/-- A text asks for a layout exactly if it is the word for it in any case. -/
theorem Mode.ofWord?_eq_some_iff (text : Text) (mode : Mode) :
    ofWord? text = some mode ↔ Text.lowerAscii text = mode.word := by
  rw [← lower_eq_word_iff, ofWord?]
  constructor
  · intro found
    split at found
    · cases found; assumption
    · split at found
      · cases found; assumption
      · cases found
  · intro same
    rw [same]
    cases mode <;> decide

end Manuscript
