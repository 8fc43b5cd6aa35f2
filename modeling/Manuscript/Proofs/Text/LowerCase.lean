/-
This file says what lower-casing can do to the characters that structure is read from:
the ASCII characters and white space. Lower-casing goes by a large table and looks at
neighbours, but apart from ASCII letters it makes an ASCII character in two places only,
a dotted capital `İ`, which becomes an `i` with a dot of its own behind it, and the
kelvin sign, which becomes a `k`. It neither makes white space nor takes any away. All
of this is checked once for the table and stated as a relation between a text and its
lower case, which the other files reason with.
-/

import Mathlib.Tactic.Common
import Manuscript.Text.LowerCase

namespace Manuscript

/-! ### White space by code point -/

/-- The code points of white space. -/
def spaceCodes : List Nat :=
  [9, 10, 11, 12, 13, 0x20, 0x85, 0xA0, 0x1680, 0x2000, 0x2001, 0x2002, 0x2003, 0x2004, 0x2005,
   0x2006, 0x2007, 0x2008, 0x2009, 0x200A, 0x2028, 0x2029, 0x202F, 0x205F, 0x3000]

theorem isSpace_iff (character : Char) :
    isSpace character = true ↔ character.toNat ∈ spaceCodes := by
  simp only [isSpace, spaceCodes, Bool.or_eq_true, Bool.and_eq_true, decide_eq_true_eq,
    beq_iff_eq, List.mem_cons, List.mem_nil_iff, or_false]
  omega

/-! ### Small letters in ASCII -/

theorem ascii_small : ∀ code < 0x80,
    (Char.ofNat code).toLower.toNat < 0x80 ∧
      (Char.ofNat code).toLower.toLower = (Char.ofNat code).toLower ∧
      isSpace (Char.ofNat code).toLower = isSpace (Char.ofNat code) ∧
      (isSpace (Char.ofNat code) = true → (Char.ofNat code).toLower = Char.ofNat code) ∧
      ((Char.ofNat code).toLower = '-' → Char.ofNat code = '-') := by
  decide +kernel

theorem toLower_of_ascii {character : Char} (ascii : character.toNat < 0x80) :
    character.toLower.toNat < 0x80 ∧ character.toLower.toLower = character.toLower ∧
      isSpace character.toLower = isSpace character ∧
      (isSpace character = true → character.toLower = character) ∧
      (character.toLower = '-' → character = '-') := by
  have facts := ascii_small character.toNat ascii
  rwa [Char.ofNat_toNat] at facts

theorem toLower_of_not_ascii {character : Char} (large : 0x80 ≤ character.toNat) :
    character.toLower = character := by
  unfold Char.toLower
  rw [dif_neg]
  rintro ⟨_, capital⟩
  have bound : character.toNat ≤ 90 := UInt32.le_iff_toNat_le.mp capital
  omega

theorem toLower_of_isSpace {character : Char} (space : isSpace character = true) :
    character.toLower = character := by
  by_cases small : character.toNat < 0x80
  · exact (toLower_of_ascii small).2.2.2.1 space
  · exact toLower_of_not_ascii (Nat.le_of_not_lt small)

theorem ascii_of_lowerAscii {text : Text}
    (ascii : ∀ character ∈ Text.lowerAscii text, character.toNat < 0x80) :
    ∀ character ∈ text, character.toNat < 0x80 := by
  intro character member
  by_contra large
  have small := ascii _ (List.mem_map_of_mem member)
  rw [toLower_of_not_ascii (Nat.le_of_not_lt large)] at small
  exact large small

/-! ### The table of capitals -/

/-- The capitals of the table and their small letters are characters outside ASCII that are not
white space, apart from the kelvin sign and its `k`. -/
theorem caseRuns_apart : ∀ run ∈ caseRuns,
    (run.lower + (run.last - run.first) < 0xD800 ∨
      0xDFFF < run.lower ∧ run.lower + (run.last - run.first) < 0x110000) ∧
    (0x80 ≤ run.lower ∨ run.first = 0x212A ∧ run.last = 0x212A) ∧
    ∀ code ∈ spaceCodes, (code < run.first ∨ run.last < code) ∧
      (code < run.lower ∨ run.lower + (run.last - run.first) < code) := by
  decide +kernel

theorem toNat_ofNat {code : Nat} (valid : code.isValidChar) : (Char.ofNat code).toNat = code := by
  rw [Char.ofNat, dif_pos valid]
  rfl

theorem smallByTable_of_ne_kelvin {character : Char} (large : 0x80 ≤ character.toNat)
    (other : character.toNat ≠ 0x212A) :
    0x80 ≤ (smallByTable character).toNat ∧
      isSpace (smallByTable character) = isSpace character ∧
      (isSpace character = true → smallByTable character = character) := by
  unfold smallByTable
  cases found : caseRuns.find? (·.covers character.toNat) with
  | none => exact ⟨large, rfl, fun _ => rfl⟩
  | some run =>
    have covered := List.find?_some found
    simp only [CaseRun.covers, Bool.and_eq_true, decide_eq_true_eq] at covered
    obtain ⟨valid, outside, apart⟩ := caseRuns_apart run (List.mem_of_find?_eq_some found)
    have code : (Char.ofNat (run.small character.toNat)).toNat = run.small character.toNat :=
      toNat_ofNat (by unfold Nat.isValidChar CaseRun.small; omega)
    have capital : isSpace character = false := by
      rw [Bool.eq_false_iff, ne_eq, isSpace_iff]
      intro member
      have := (apart _ member).1
      omega
    have small : isSpace (Char.ofNat (run.small character.toNat)) = false := by
      rw [Bool.eq_false_iff, ne_eq, isSpace_iff, code]
      intro member
      have := (apart _ member).2
      unfold CaseRun.small at this
      omega
    refine ⟨?_, small.trans capital.symm, fun space => ?_⟩
    · show 0x80 ≤ (Char.ofNat (run.small character.toNat)).toNat
      rw [code]
      unfold CaseRun.small
      omega
    · rw [capital] at space
      cases space

/-! ### A character and its lower case -/

/-- What one character can become in lower case. -/
inductive LowersTo (character : Char) : Text → Prop where
  | ascii (small : character.toNat < 0x80) : LowersTo character [character.toLower]
  /-- The dotted capital brings a dot along. -/
  | dotted (code : character.toNat = 0x130) : LowersTo character ['i', Char.ofNat 0x307]
  | kelvin (code : character.toNat = 0x212A) : LowersTo character ['k']
  | other (form : Char) (large : 0x80 ≤ character.toNat) (formLarge : 0x80 ≤ form.toNat)
      (sameSpace : isSpace form = isSpace character)
      (fixed : isSpace character = true → form = character) : LowersTo character [form]

theorem lowersTo_smallForm (character : Char) : LowersTo character (smallForm character) := by
  unfold smallForm
  split
  · exact .ascii ‹_›
  · rename_i large
    split
    · exact .dotted ‹_›
    · by_cases kelvin : character.toNat = 0x212A
      · have same : character = Char.ofNat 0x212A := by rw [← kelvin, Char.ofNat_toNat]
        subst same
        exact .kelvin rfl
      · obtain ⟨formLarge, sameSpace, fixed⟩ :=
          smallByTable_of_ne_kelvin (Nat.le_of_not_lt large) kelvin
        exact .other _ (Nat.le_of_not_lt large) formLarge sameSpace fixed

/-- A sigma becomes one of the two small sigmas. -/
theorem lowersTo_sigma {character : Char} (sigma : character.toNat = 0x3A3) (final : Bool) :
    LowersTo character [Char.ofNat (if final then 0x3C2 else 0x3C3)] := by
  have same : character = Char.ofNat 0x3A3 := by rw [← sigma, Char.ofNat_toNat]
  subst same
  refine .other _ (by decide) ?_ ?_ (fun space => absurd space (by decide)) <;>
    cases final <;> decide

/-- A text and a lower case of it, character by character. -/
inductive Lowers : Text → Text → Prop where
  | nil : Lowers [] []
  | cons {character : Char} {form rest small : Text} (here : LowersTo character form)
      (behind : Lowers rest small) : Lowers (character :: rest) (form ++ small)

theorem lowers_lowerAfter (afterCased : Bool) (text : Text) :
    Lowers text (Text.lowerAfter afterCased text) := by
  induction text generalizing afterCased with
  | nil => exact .nil
  | cons character rest inductionHypothesis =>
    refine .cons ?_ (inductionHypothesis _)
    split
    · exact lowersTo_sigma ‹_› _
    · exact lowersTo_smallForm character

theorem lowers_lower (text : Text) : Lowers text (Text.lower text) :=
  lowers_lowerAfter false text

/-! ### Texts in lower case -/

/-- Lower-casing neither makes nor removes white space. -/
theorem LowersTo.isBlank {character : Char} {form : Text} (here : LowersTo character form) :
    Text.isBlank form = isSpace character := by
  cases here with
  | ascii small => simpa [Text.isBlank] using (toLower_of_ascii small).2.2.1
  | dotted code =>
    rw [show character = Char.ofNat 0x130 by rw [← code, Char.ofNat_toNat]]
    decide
  | kelvin code =>
    rw [show character = Char.ofNat 0x212A by rw [← code, Char.ofNat_toNat]]
    decide
  | other form large formLarge sameSpace fixed => simpa [Text.isBlank] using sameSpace

theorem Lowers.isBlank {text small : Text} (lowers : Lowers text small) :
    small.isBlank = text.isBlank := by
  induction lowers with
  | nil => rfl
  | cons here behind inductionHypothesis =>
    have front := here.isBlank
    simp only [Text.isBlank, List.all_append, List.all_cons] at front inductionHypothesis ⊢
    rw [front, inductionHypothesis]

/-- A text is blank exactly when its lower case is. -/
theorem isBlank_lower (text : Text) : (Text.lower text).isBlank = text.isBlank :=
  (lowers_lower text).isBlank

end Manuscript
