/-
This file finds the part of a context that the layout of a manuscript hangs on. What
kind of line a line is depends on the kind of the line before it and on the line as it
is written. The kind then moves the scope and the watch for a first paragraph. These
three are the bearing of a context, and from one line to the next they move by
themselves. Bold and italic words and open quotes are followed too, but nothing is ever
laid out by them.
-/

import Manuscript.Layout.Page
import Manuscript.Proofs.Tag.Detection

namespace Manuscript

namespace Context

/-! ### The kind of a line -/

/-- The kind of a line, read off the line as it is written. -/
theorem classify_eq (previous : LineKind) (raw : Text) :
    classify previous raw =
      if raw.isBlank then .blank
      else if previous = .prose then .prose
      else (Tag.detect? raw).elim .prose .tagged := by
  have blank : (Text.trim (Text.lower raw)).isEmpty = raw.isBlank := by
    rw [Bool.eq_iff_iff, List.isEmpty_iff, Text.trim_eq_nil_iff, isBlank_lower]
  simp only [classify, blank, Tag.detect?_lower]
  cases previous with
  | prose => rfl
  | blank | tagged => cases Tag.detect? raw <;> rfl

theorem classify_of_isBlank {raw : Text} (previous : LineKind) (blank : raw.isBlank = true) :
    classify previous raw = .blank := by
  rw [classify_eq, if_pos blank]

/-- A tag counts behind everything but prose. -/
theorem classify_of_detect? {previous : LineKind} {raw : Text} {tag : Tag}
    (apart : previous ≠ .prose) (solid : raw.isBlank = false) (found : Tag.detect? raw = some tag) :
    classify previous raw = .tagged tag := by
  rw [classify_eq, if_neg (Bool.eq_false_iff.mp solid), if_neg apart, found]
  rfl

end Context

/-! ### Bearings -/

/-- What the further layout of a manuscript hangs on. -/
structure Bearing where
  line : LineKind
  scope : Scope
  opening : Opening
  deriving DecidableEq, Repr

/-- The bearing at the next line, from the kind of that line. -/
def Bearing.after (bearing : Bearing) (line : LineKind) : Bearing where
  line := line
  scope :=
    match line with
    | .tagged tag => Scope.ofTag tag
    | _ => bearing.scope
  opening := bearing.opening.after line

namespace Context

/-- The bearing of a context. -/
def bearing (context : Context) : Bearing where
  line := context.line
  scope := context.scope
  opening := context.opening

theorem bearing_advance (context : Context) (raw : Text) :
    (context.advance raw).bearing = context.bearing.after (classify context.line raw) := rfl

theorem line_eq_of_bearing_eq {first second : Context} (same : first.bearing = second.bearing) :
    first.line = second.line :=
  congrArg Bearing.line same

/-- Contexts with one bearing have one bearing at the next line. -/
theorem bearing_advance_congr {first second : Context} (same : first.bearing = second.bearing)
    (raw : Text) : (first.advance raw).bearing = (second.advance raw).bearing := by
  rw [bearing_advance, bearing_advance, line_eq_of_bearing_eq same, same]

/-- Behind a tag that opens a paragraph the bearing is the tag's own. -/
theorem bearing_after_tag (bearing other : Bearing) {tag : Tag}
    (opens : tag.opensParagraph = true) :
    bearing.after (.tagged tag) = other.after (.tagged tag) := by
  simp only [Bearing.after, Opening.after, opens, if_true]

end Context

namespace Layout

/-- A line is laid out by the bearing of its context and the kind of the line before it. -/
theorem linesOf_congr (options : Options) (visible : Text) {first second : Context}
    (same : first.bearing = second.bearing) (previous : first.previous = second.previous) :
    linesOf options first visible = linesOf options second visible := by
  obtain ⟨line, before, scope, opening, _, _, _⟩ := first
  obtain ⟨_, _, _, _, _, _, _⟩ := second
  simp only [Context.bearing, Bearing.mk.injEq] at same previous
  obtain ⟨rfl, rfl, rfl⟩ := same
  subst previous
  rfl

/-- The layout of a line depends on the context before it only through its bearing. -/
theorem linesOf_advance_congr (options : Options) (visible raw : Text) {first second : Context}
    (same : first.bearing = second.bearing) :
    linesOf options (first.advance raw) visible = linesOf options (second.advance raw) visible :=
  linesOf_congr options visible (Context.bearing_advance_congr same raw)
    (Context.line_eq_of_bearing_eq same)

/-- Where no prose comes before it, a blank line leaves nothing on the page. -/
theorem linesOf_blank {raw : Text} (options : Options) (context : Context) (visible : Text)
    (apart : context.line ≠ .prose) (blank : raw.isBlank = true) :
    linesOf options (context.advance raw) visible = [] := by
  have line : (context.advance raw).line = .blank := Context.classify_of_isBlank _ blank
  have previous : (context.advance raw).previous = context.line := rfl
  simp only [linesOf, line, blankLines, previous]
  cases kind : context.line with
  | prose => exact absurd kind apart
  | blank | tagged => simp [LineKind.isBlank, LineKind.isTagged]

/-- A line of which nothing is visible leaves nothing on the page, unless it is blank. -/
theorem linesOf_of_isBlank (options : Options) (context : Context) {visible : Text}
    (solid : context.line ≠ .blank) (hidden : visible.isBlank = true) :
    linesOf options context visible = [] := by
  have words : Text.tidy visible = [] := (Text.tidy_eq_nil_iff visible).mpr hidden
  rw [linesOf, words]
  cases line : context.line with
  | blank => exact absurd line solid
  | tagged tag | prose => rfl

/-- A line that declares a tag is laid out by the tag alone. -/
theorem linesOf_tagged (options : Options) (visible : Text) {first second : Context} {tag : Tag}
    (one : first.line = .tagged tag) (other : second.line = .tagged tag) :
    linesOf options first visible = linesOf options second visible := by
  simp only [linesOf, one, other]

end Layout

end Manuscript
