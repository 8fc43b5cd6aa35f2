/-
This file is about the one letter whose lower case depends on what stands around it. A capital
sigma is written in its final form at the end of a word, so a text inside a longer one can be
lower-cased otherwise than alone. Lower-casing runs through a text once and carries along
whether it has come from a cased character; here the form of each character is read off the
text in front of it and the text behind it, and the two readings are shown to be one. Then a
text has the same lower case inside another as alone exactly if each sigma of it ends a word
there as it does alone.
-/

import Mathlib.Data.List.Basic
import Manuscript.Text.LowerCase

namespace Manuscript.Text

/-- The capital sigma. -/
def sigma : Char := Char.ofNat 0x3A3

theorem toNat_eq_sigma_iff (character : Char) : character.toNat = 0x3A3 ↔ character = sigma := by
  rw [← Char.toNat_inj]
  rfl

/-! ### What stands around a character -/

/-- Whether the last character that is not passed over is cased. -/
def endsCased (text : Text) : Bool :=
  startsCased text.reverse

theorem startsCased_append_of_not (text : Text) {behind : Text}
    (uncased : startsCased behind = false) : startsCased (text ++ behind) = startsCased text := by
  induction text with
  | nil => exact uncased
  | cons character rest inductionHypothesis =>
    rw [List.cons_append, startsCased, startsCased, inductionHypothesis]

theorem endsCased_append_of_not {front : Text} (uncased : endsCased front = false) (text : Text) :
    endsCased (front ++ text) = endsCased text := by
  rw [endsCased, List.reverse_append, startsCased_append_of_not _ uncased, endsCased]

theorem endsCased_concat (text : Text) (last : Char) :
    endsCased (text ++ [last]) = if isIgnorable last then endsCased text else isCased last := by
  rw [endsCased, List.reverse_concat, startsCased, endsCased]

/-- A place between two texts is the end of a word: there is a cased character in front of it and
none behind it, where some characters are passed over. -/
def endsWord (front back : Text) : Bool :=
  endsCased front && !startsCased back

/-- The lower case of a character between two texts. -/
def formBetween (front : Text) (character : Char) (back : Text) : Text :=
  if character = sigma then [Char.ofNat (if endsWord front back then 0x3C2 else 0x3C3)]
  else smallForm character

/-- The lower case of a text between two others. -/
def lowerBetween : (front text back : Text) → Text
  | _, [], _ => []
  | front, character :: rest, back =>
    formBetween front character (rest ++ back) ++ lowerBetween (front ++ [character]) rest back

/-! ### One reading and the other -/

theorem lowerAfter_endsCased (front text : Text) :
    lowerAfter (endsCased front) text = lowerBetween front text [] := by
  induction text generalizing front with
  | nil => rfl
  | cons character rest inductionHypothesis =>
    simp only [lowerAfter, lowerBetween, formBetween, endsWord, toNat_eq_sigma_iff, List.append_nil,
      ← endsCased_concat, inductionHypothesis]

/-- Lower-casing a text gives each character the form that it has between the text in front of it
and the text behind it. -/
theorem lower_eq_lowerBetween (text : Text) : lower text = lowerBetween [] text [] :=
  lowerAfter_endsCased [] text

theorem lowerBetween_append (front text more back : Text) :
    lowerBetween front (text ++ more) back =
      lowerBetween front text (more ++ back) ++ lowerBetween (front ++ text) more back := by
  induction text generalizing front with
  | nil => rw [List.nil_append, lowerBetween, List.nil_append, List.append_nil]
  | cons character rest inductionHypothesis =>
    rw [List.cons_append, lowerBetween, lowerBetween, inductionHypothesis,
      List.append_cons front character rest, List.append_assoc rest,
      List.append_assoc (formBetween _ _ _)]

/-- The lower case of a text holds that of each part of it, in the form that the part has there. -/
theorem lower_append_append (front text back : Text) :
    lower (front ++ text ++ back) =
      lowerBetween [] front (text ++ back) ++ lowerBetween front text back ++
        lowerBetween (front ++ text) back [] := by
  rw [lower_eq_lowerBetween, lowerBetween_append, lowerBetween_append]
  simp only [List.nil_append, List.append_nil]

/-! ### A text alone and within another -/

/-- Each sigma of a text ends a word between two others exactly if it does so alone. -/
def KeepsSigmas (front text back : Text) : Prop :=
  ∀ before after, text = before ++ sigma :: after →
    endsWord (front ++ before) (after ++ back) = endsWord before after

theorem keepsSigmas_of_not_mem (front : Text) {text : Text} (none : sigma ∉ text) (back : Text) :
    KeepsSigmas front text back := by
  rintro before after rfl
  exact absurd (List.mem_append_right _ List.mem_cons_self) none

/-- At the beginning of a word and at the end of one, what is around a text makes no difference. -/
theorem keepsSigmas_of_whole {front back : Text} (begins : endsCased front = false)
    (ends : startsCased back = false) (text : Text) : KeepsSigmas front text back := by
  intro before after _
  rw [endsWord, endsCased_append_of_not begins, startsCased_append_of_not _ ends, endsWord]

theorem formBetween_sigma_eq_iff (front back other behind : Text) :
    formBetween front sigma back = formBetween other sigma behind ↔
      endsWord front back = endsWord other behind := by
  simp only [formBetween, if_true]
  cases endsWord front back <;> cases endsWord other behind <;> decide

theorem length_formBetween (front : Text) (character : Char) (back other behind : Text) :
    (formBetween front character back).length = (formBetween other character behind).length := by
  unfold formBetween
  split <;> rfl

theorem lowerBetween_eq_iff (front text back other behind : Text) :
    lowerBetween front text back = lowerBetween other text behind ↔
      ∀ before after, text = before ++ sigma :: after →
        endsWord (front ++ before) (after ++ back) =
          endsWord (other ++ before) (after ++ behind) := by
  induction text generalizing front other with
  | nil => exact iff_of_true rfl fun before after whole => absurd whole.symm (by simp)
  | cons character rest inductionHypothesis =>
    have divided : lowerBetween front (character :: rest) back =
        lowerBetween other (character :: rest) behind ↔
          formBetween front character (rest ++ back) =
              formBetween other character (rest ++ behind) ∧
            lowerBetween (front ++ [character]) rest back =
              lowerBetween (other ++ [character]) rest behind :=
      ⟨fun same => List.append_inj same (length_formBetween _ _ _ _ _),
        fun both => congrArg₂ (· ++ ·) both.1 both.2⟩
    rw [divided, inductionHypothesis]
    constructor
    · rintro ⟨here, further⟩ before after whole
      cases before with
      | nil =>
        obtain ⟨rfl, rfl⟩ := List.cons.inj whole
        rw [List.append_nil, List.append_nil]
        exact (formBetween_sigma_eq_iff _ _ _ _).mp here
      | cons first before =>
        obtain ⟨rfl, behindFirst⟩ := List.cons.inj whole
        rw [List.append_cons, List.append_cons other]
        exact further before after behindFirst
    · intro all
      refine ⟨?_, fun before after whole => ?_⟩
      · by_cases same : character = sigma
        · subst same
          have here := all [] rest rfl
          rw [List.append_nil, List.append_nil] at here
          exact (formBetween_sigma_eq_iff _ _ _ _).mpr here
        · simp only [formBetween, if_neg same]
      · have further := all (character :: before) after (by rw [whole]; rfl)
        rwa [List.append_cons, List.append_cons other] at further

/-- Inside another text a text has the lower case that it has alone exactly if each sigma of it
ends a word there as it does alone. -/
theorem lowerBetween_eq_lower_iff (front text back : Text) :
    lowerBetween front text back = lower text ↔ KeepsSigmas front text back := by
  rw [lower_eq_lowerBetween, lowerBetween_eq_iff, KeepsSigmas]
  simp only [List.nil_append, List.append_nil]

end Manuscript.Text
