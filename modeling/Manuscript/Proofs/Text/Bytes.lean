/-
This file is about the bytes that a text takes in UTF-8. A number of bytes cuts a text only where
it is on the boundary of two characters, and then it says where that is, so a text and two such
numbers determine what stands between them. Byte offsets are meant as they are for strings: they
count the bytes of the encoding, and the boundaries are the places where what is in front of them
encodes a string.
-/

import Mathlib.Tactic.Common
import Manuscript.Text.Basic

namespace Manuscript.Text

/-! ### The length in bytes -/

theorem byteLength_eq_zero_iff (text : Text) : text.byteLength = 0 ↔ text = [] := by
  cases text with
  | nil => exact iff_of_true rfl rfl
  | cons character rest =>
    have positive := character.utf8Size_pos
    refine iff_of_false ?_ (List.cons_ne_nil _ _)
    rw [byteLength]
    omega

theorem byteLength_append (first second : Text) :
    (first ++ second).byteLength = first.byteLength + second.byteLength := by
  induction first with
  | nil => exact (Nat.zero_add _).symm
  | cons character first inductionHypothesis =>
    rw [List.cons_append, byteLength, inductionHypothesis, byteLength, Nat.add_assoc]

/-- In ASCII every character takes up one byte. -/
theorem byteLength_of_ascii {text : Text} (ascii : ∀ character ∈ text, character.toNat < 0x80) :
    text.byteLength = text.length := by
  induction text with
  | nil => rfl
  | cons character rest inductionHypothesis =>
    obtain ⟨first, others⟩ := List.forall_mem_cons.mp ascii
    have single : character.utf8Size = 1 := by
      rw [Char.utf8Size_eq_one_iff, UInt32.le_iff_toNat_le]
      exact Nat.le_of_lt_succ first
    rw [byteLength, single, inductionHypothesis others, List.length_cons, Nat.add_comm]

/-- The length in bytes is that of the text as a string. -/
theorem utf8ByteSize_ofList (text : Text) :
    (String.ofList text).utf8ByteSize = text.byteLength := by
  induction text with
  | nil => rfl
  | cons character rest inductionHypothesis =>
    have parts : String.ofList (character :: rest) =
        String.singleton character ++ String.ofList rest := by
      rw [String.singleton_eq_ofList, ← String.ofList_append]
      rfl
    rw [parts, String.utf8ByteSize_append, String.utf8ByteSize_singleton, inductionHypothesis,
      byteLength]

/-! ### Cutting at a number of bytes -/

/-- The front of a text that takes up so many bytes, and the rest. There is none if the text is
shorter or if a character lies across the cut. -/
def cutBytes? : (count : Nat) → Text → Option (Text × Text)
  | 0, text => some ([], text)
  | _ + 1, [] => none
  | count + 1, character :: rest =>
    if character.utf8Size ≤ count + 1 then
      (cutBytes? (count + 1 - character.utf8Size) rest).map fun (front, back) =>
        (character :: front, back)
    else none

theorem cutBytes?_eq_some_iff (count : Nat) (text front back : Text) :
    cutBytes? count text = some (front, back) ↔
      text = front ++ back ∧ front.byteLength = count := by
  induction text generalizing count front with
  | nil =>
    cases count with
    | zero =>
      rw [cutBytes?, byteLength_eq_zero_iff, Option.some_inj, Prod.mk.injEq]
      constructor
      · rintro ⟨rfl, rfl⟩
        exact ⟨rfl, rfl⟩
      · rintro ⟨whole, rfl⟩
        exact ⟨rfl, whole⟩
    | succ count =>
      refine iff_of_false nofun ?_
      rintro ⟨whole, length⟩
      rw [(List.append_eq_nil_iff.mp whole.symm).1] at length
      cases length
  | cons character rest inductionHypothesis =>
    cases count with
    | zero =>
      rw [cutBytes?, byteLength_eq_zero_iff, Option.some_inj, Prod.mk.injEq]
      constructor
      · rintro ⟨rfl, rfl⟩
        exact ⟨rfl, rfl⟩
      · rintro ⟨whole, rfl⟩
        exact ⟨rfl, whole⟩
    | succ count =>
      cases front with
      | nil =>
        refine iff_of_false (fun cut => ?_) fun both => Nat.succ_ne_zero count both.2.symm
        rw [cutBytes?] at cut
        split at cut
        · obtain ⟨_, _, same⟩ := Option.map_eq_some_iff.mp cut
          cases same
        · cases cut
      | cons first front =>
        rw [cutBytes?, byteLength, List.cons_append, List.cons.injEq]
        split
        · rename_i fits
          have further := inductionHypothesis (count + 1 - character.utf8Size) front
          constructor
          · intro cut
            obtain ⟨⟨_, _⟩, behind, same⟩ := Option.map_eq_some_iff.mp cut
            cases same
            obtain ⟨whole, length⟩ := further.mp behind
            exact ⟨⟨rfl, whole⟩, by omega⟩
          · rintro ⟨⟨rfl, whole⟩, length⟩
            rw [further.mpr ⟨whole, by omega⟩]
            rfl
        · rename_i across
          refine iff_of_false nofun ?_
          rintro ⟨⟨rfl, _⟩, length⟩
          omega

/-- Where a text is put together from two in two ways, the first part begins with the other first
part if that has no more bytes. -/
theorem exists_eq_append_of_byteLength_le {front rest other back : Text}
    (whole : front ++ rest = other ++ back) (shorter : front.byteLength ≤ other.byteLength) :
    ∃ middle, other = front ++ middle ∧ rest = middle ++ back := by
  rcases List.append_eq_append_iff.mp whole with longer | ⟨middle, rfl, rfl⟩
  · exact longer
  · rw [byteLength_append] at shorter
    obtain rfl : middle = [] := (byteLength_eq_zero_iff middle).mp (by omega)
    exact ⟨[], by rw [List.append_nil, List.append_nil], rfl⟩

/-- So a number of bytes divides a text in one way only. -/
theorem append_inj_of_byteLength_eq {front rest other back : Text}
    (whole : front ++ rest = other ++ back) (same : front.byteLength = other.byteLength) :
    front = other ∧ rest = back := by
  obtain ⟨middle, rfl, rfl⟩ := exists_eq_append_of_byteLength_le whole (Nat.le_of_eq same)
  rw [byteLength_append] at same
  obtain rfl : middle = [] := (byteLength_eq_zero_iff middle).mp (by omega)
  exact ⟨(List.append_nil front).symm, rfl⟩

/-! ### Between two byte offsets -/

/-- A text stands between two byte offsets of another one: the first offset is not behind the
second, both are on boundaries of characters, and the bytes between them encode it. -/
structure IsSlice (text : Text) (start stop : Nat) (slice : Text) : Prop where
  ordered : start ≤ stop
  front : String.Pos.Raw.IsValid (String.ofList text) ⟨start⟩
  back : String.Pos.Raw.IsValid (String.ofList text) ⟨stop⟩
  bytes : (String.ofList text).toByteArray.extract start stop = (String.ofList slice).toByteArray

/-- The boundaries of characters are where a text divides into two. -/
theorem isValid_iff (text : Text) (offset : Nat) :
    String.Pos.Raw.IsValid (String.ofList text) ⟨offset⟩ ↔
      ∃ front back, text = front ++ back ∧ front.byteLength = offset := by
  rw [String.Pos.Raw.isValid_ofList]
  constructor
  · rintro ⟨place, length⟩
    refine ⟨text.take place, text.drop place, (List.take_append_drop place text).symm, ?_⟩
    rw [← utf8ByteSize_ofList]
    exact length.symm
  · rintro ⟨front, back, rfl, rfl⟩
    refine ⟨front.length, ?_⟩
    rw [List.take_left, utf8ByteSize_ofList]

/-- The bytes behind the first part of a text and up to the third are those of the second. -/
theorem extract_bytes (front slice back : Text) :
    (String.ofList (front ++ (slice ++ back))).toByteArray.extract front.byteLength
        (front.byteLength + slice.byteLength) = (String.ofList slice).toByteArray := by
  have size (text : Text) : text.byteLength = (String.ofList text).toByteArray.size :=
    (utf8ByteSize_ofList text).symm
  rw [String.ofList_append, String.ofList_append, String.toByteArray_append,
    String.toByteArray_append, size front, size slice]
  generalize (String.ofList front).toByteArray = first
  generalize (String.ofList slice).toByteArray = middle
  generalize (String.ofList back).toByteArray = last
  calc (first ++ (middle ++ last)).extract first.size (first.size + middle.size)
      = (first ++ (middle ++ last)).extract (first.size + 0) (first.size + middle.size) := by
        rw [Nat.add_zero]
    _ = (middle ++ last).extract 0 middle.size := ByteArray.extract_append_size_add
    _ = middle := ByteArray.extract_append_eq_left rfl

/-- The text between two byte offsets has the rest of the text around it, and the offsets are how
many bytes stand in front of it without and with its own. -/
theorem isSlice_iff (text : Text) (start stop : Nat) (slice : Text) :
    IsSlice text start stop slice ↔ ∃ front back, text = front ++ (slice ++ back) ∧
      front.byteLength = start ∧ start + slice.byteLength = stop := by
  constructor
  · rintro ⟨ordered, validFront, validBack, bytes⟩
    obtain ⟨front, rest, rfl, rfl⟩ := (isValid_iff text start).mp validFront
    obtain ⟨other, back, whole, rfl⟩ := (isValid_iff _ stop).mp validBack
    obtain ⟨middle, rfl, rfl⟩ := exists_eq_append_of_byteLength_le whole ordered
    rw [byteLength_append, extract_bytes, String.toByteArray_inj, String.ofList_inj] at bytes
    subst bytes
    exact ⟨front, back, rfl, rfl, (byteLength_append front middle).symm⟩
  · rintro ⟨front, back, rfl, rfl, rfl⟩
    refine ⟨Nat.le_add_right _ _, ?_, ?_, extract_bytes front slice back⟩
    · exact (isValid_iff _ _).mpr ⟨front, slice ++ back, rfl, rfl⟩
    · exact (isValid_iff _ _).mpr
        ⟨front ++ slice, back, (List.append_assoc _ _ _).symm, byteLength_append front slice⟩

end Manuscript.Text
