/-
This file says which tag a line declares, and that there is never a choice. The words of the
tags begin with different letters and a section break with a hyphen, so at most one of them
fits a line and the order in which they are tried does not matter. A word is recognised by as
many characters as it has. Cutting its bytes off the line instead comes to the same: a line
that is too short, or that has a character lying across the end of those bytes, does not begin
with the word, because the word is in ASCII.
-/

import Manuscript.Proofs.Tag.Detection
import Manuscript.Proofs.Text.Bytes

namespace Manuscript

namespace Tag

/-! ### The word of a tag -/

theorem restAfter?_eq_some_iff (tag : Tag) (line rest : Text) :
    tag.restAfter? line = some rest ↔
      ∃ word, line = word ++ rest ∧ Text.lowerAscii word = tag.literal := by
  unfold restAfter?
  constructor
  · intro found
    split at found
    · cases found
      exact ⟨_, (List.take_append_drop _ line).symm, ‹_›⟩
    · cases found
  · rintro ⟨word, rfl, same⟩
    have length : word.length = tag.literal.length := by
      rw [← same, Text.lowerAscii, List.length_map]
    rw [List.take_left' length, List.drop_left' length, if_pos same]

/-- What follows the tag's word, with as many bytes of the line compared as the word has. -/
def restBehindBytes? (tag : Tag) (line : Text) : Option Text :=
  (Text.cutBytes? tag.literal.byteLength line).bind fun (word, rest) =>
    if Text.lowerAscii word = tag.literal then some rest else none

/-- Bytes and characters come to the same. -/
theorem restBehindBytes?_eq (tag : Tag) (line : Text) :
    tag.restBehindBytes? line = tag.restAfter? line := by
  have inAscii := ascii_of_isSteady tag.isSteady_literal
  refine Option.ext fun rest => ?_
  rw [restAfter?_eq_some_iff, restBehindBytes?, Option.bind_eq_some_iff]
  constructor
  · rintro ⟨⟨word, back⟩, cut, found⟩
    simp only at found
    split at found
    · cases found
      exact ⟨word, ((Text.cutBytes?_eq_some_iff _ _ _ _).mp cut).1, ‹_›⟩
    · cases found
  · rintro ⟨word, whole, same⟩
    have length : word.byteLength = tag.literal.byteLength := by
      rw [Text.byteLength_of_ascii inAscii,
        Text.byteLength_of_ascii (ascii_of_lowerAscii (same ▸ inAscii)), ← same, Text.lowerAscii,
        List.length_map]
    exact ⟨(word, rest), (Text.cutBytes?_eq_some_iff _ _ _ _).mpr ⟨whole, length⟩, if_pos same⟩

/-- A tag that is a word fits the lines that begin with the word in any case. -/
theorem matchesLine_iff_begins {tag : Tag} (word : tag ≠ .sectionBreak) (line : Text) :
    tag.matchesLine line = true ↔ tag.literal <+: Text.lowerAscii line := by
  have found : tag.matchesLine line = (tag.restAfter? line).isSome := by
    cases tag with
    | sectionBreak => exact absurd rfl word
    | author | chapter | sectionTag | title => rfl
  rw [found, isSome_restAfter?, List.prefix_iff_eq_take, Text.lowerAscii, List.map_take, eq_comm,
    Text.lowerAscii]

/-! ### One tag for a line -/

/-- A line that a tag fits begins, white space apart, like the tag. -/
theorem head?_of_matchesLine {tag : Tag} {line : Text} (fits : tag.matchesLine line = true) :
    (Text.lowerAscii (Text.trimStart line)).head? = tag.literal.head? := by
  by_cases hyphens : tag = .sectionBreak
  · subst hyphens
    obtain ⟨tail, _, whole⟩ := Text.exists_eq_trimEnd (Text.trimStart line)
    have trimmed : Text.trimEnd (Text.trimStart line) = sectionBreak.literal := beq_iff_eq.mp fits
    rw [whole, trimmed]
    rfl
  · obtain ⟨back, whole⟩ := (matchesLine_iff_begins hyphens line).mp fits
    cases line with
    | nil =>
      have empty := (List.append_eq_nil_iff.mp whole).1
      cases tag <;> cases empty
    | cons character rest =>
      have first : tag.literal.head? = some character.toLower := by
        cases word : tag.literal with
        | nil => cases tag <;> cases word
        | cons letter letters =>
          rw [word] at whole
          rw [List.head?_cons, (List.cons.inj whole).1]
      have letter : isSpace character.toLower = false :=
        isSpace_of_mem_literal tag _ (List.mem_of_mem_head? first)
      have solid : ¬isSpace character = true := by
        intro space
        rw [toLower_of_isSpace space, space] at letter
        cases letter
      rw [Text.trimStart, List.dropWhile_cons_of_neg solid, first]
      rfl

theorem eq_of_head?_literal {tag other : Tag} (same : tag.literal.head? = other.literal.head?) :
    tag = other := by
  revert same
  cases tag <;> cases other <;> decide

/-- At most one tag fits a line. -/
theorem eq_of_matchesLine {tag other : Tag} {line : Text} (fits : tag.matchesLine line = true)
    (fitsToo : other.matchesLine line = true) : tag = other :=
  eq_of_head?_literal ((head?_of_matchesLine fits).symm.trans (head?_of_matchesLine fitsToo))

/-- In whatever order the tags are tried, the one that fits is found. -/
theorem find?_eq_some_iff {order : List Tag} (complete : ∀ tag, tag ∈ order) (line : Text)
    (tag : Tag) : order.find? (·.matchesLine line) = some tag ↔ tag.matchesLine line = true := by
  have fitting {other : Tag} (found : order.find? (·.matchesLine line) = some other) :
      other.matchesLine line = true := by
    have fits := List.find?_some found
    exact fits
  constructor
  · exact fitting
  · intro fits
    cases found : order.find? (·.matchesLine line) with
    | none => exact absurd fits (List.find?_eq_none.mp found tag (complete tag))
    | some other => rw [eq_of_matchesLine fits (fitting found)]

theorem mem_all (tag : Tag) : tag ∈ all := by
  cases tag <;> decide

theorem detect?_eq_some_iff (line : Text) (tag : Tag) :
    detect? line = some tag ↔ tag.matchesLine line = true :=
  find?_eq_some_iff mem_all line tag

/-- Which tag a line declares is never a matter of choice. At most one tag fits a line, so the
order in which they are tried does not matter; the lower case of the line declares the same
one; and a tag that is a word is declared exactly by the lines that begin with that word in
any mixture of ASCII capitals and small letters, also if they are compared by bytes. -/
theorem detect?_unambiguous (line : Text) :
    (∀ tag other : Tag, tag.matchesLine line = true → other.matchesLine line = true →
        tag = other) ∧
      (∀ order : List Tag, order.Perm all → order.find? (·.matchesLine line) = detect? line) ∧
      detect? (Text.lower line) = detect? line ∧
      ∀ tag : Tag, tag ≠ .sectionBreak →
        (detect? line = some tag ↔ tag.literal <+: Text.lowerAscii line) ∧
          tag.restAfter? line = tag.restBehindBytes? line ∧
          ∀ rest, tag.restBehindBytes? line = some rest ↔
            ∃ word, line = word ++ rest ∧ Text.lowerAscii word = tag.literal := by
  refine ⟨fun tag other => eq_of_matchesLine, fun order permuted => Option.ext fun tag => ?_,
    detect?_lower line, fun tag word => ⟨?_, (restBehindBytes?_eq tag line).symm, fun rest => ?_⟩⟩
  · rw [detect?_eq_some_iff]
    exact find?_eq_some_iff (fun tag => permuted.mem_iff.mpr (mem_all tag)) line tag
  · rw [detect?_eq_some_iff, matchesLine_iff_begins word]
  · rw [restBehindBytes?_eq, restAfter?_eq_some_iff]

/-- A word in mixed case with a letter of two bytes right behind it declares its tag. Where such
a letter lies across the end of the word's bytes there is no tag. -/
theorem detect?_unambiguous_beside_long_letters :
    let tagged := "chAptER:é".toList
    let untagged := "Titleé:".toList
    let found := (detect? tagged).getD .sectionBreak
    (chapter.matchesLine tagged = true ∧ found.matchesLine tagged = true ∧ chapter = found) ∧
      (all.reverse.Perm all ∧ all.reverse.find? (·.matchesLine tagged) = some .chapter) ∧
      detect? (Text.lower tagged) = some .chapter ∧
      title ≠ .sectionBreak ∧ title.restBehindBytes? untagged = none ∧
      detect? untagged ≠ some .title ∧ ¬title.literal <+: Text.lowerAscii untagged := by
  intro tagged untagged found
  have fits : chapter.matchesLine tagged = true := by decide +kernel
  have foundFits : found.matchesLine tagged = true := by decide +kernel
  have declares : detect? tagged = some .chapter := by decide +kernel
  have cut : title.restBehindBytes? untagged = none := by decide +kernel
  have nothing : detect? untagged ≠ some .title := by decide +kernel
  obtain ⟨one, order, lower, _⟩ := detect?_unambiguous tagged
  obtain ⟨_, _, _, words⟩ := detect?_unambiguous untagged
  refine ⟨⟨fits, foundFits, one _ _ fits foundFits⟩, ⟨List.reverse_perm all, ?_⟩, ?_,
    by decide, cut, nothing, ?_⟩
  · rw [order _ (List.reverse_perm all), declares]
  · rw [lower, declares]
  · rwa [← (words title (by decide)).1]

end Tag

end Manuscript
