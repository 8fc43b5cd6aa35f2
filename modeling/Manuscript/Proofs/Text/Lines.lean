/-
This file is about texts made of lines. Behind a line feed a text is cut as if it began
there, so two texts can be cut apart wherever the first one ends its line. A text put
together from lines ends the last one too, and falls into the same lines again as long
as no line has a line feed in it.

White space put in at the end of a line stays there. A carriage return is cut off only
directly before the line feed, so one that stood there may now be kept and another one be
lost, but carriage returns are white space as well: but for white space at their ends the
lines are the same.
-/

import Mathlib.Data.List.Basic
import Manuscript.Proofs.Text.Space
import Manuscript.Text.Lines

namespace Manuscript

/-! ### Cutting behind a line end -/

theorem cutLines_feed_ne_nil {Symbol : Type} [DecidableEq Symbol] (feed carriage : Symbol)
    (stream rest : List Symbol) : cutLines feed carriage (stream ++ feed :: rest) ≠ [] := by
  induction stream with
  | nil =>
    rw [List.nil_append, cutLines, if_pos rfl]
    exact List.cons_ne_nil _ _
  | cons symbol stream inductionHypothesis =>
    rw [List.cons_append, cutLines]
    split
    · exact List.cons_ne_nil _ _
    · split
      · exact inductionHypothesis
      · split <;> exact List.cons_ne_nil _ _

/-- Behind a line feed a stream is cut as if it began there. -/
theorem cutLines_append_feed {Symbol : Type} [DecidableEq Symbol] (feed carriage : Symbol)
    (stream rest : List Symbol) :
    cutLines feed carriage (stream ++ feed :: rest) =
      cutLines feed carriage (stream ++ [feed]) ++ cutLines feed carriage rest := by
  induction stream with
  | nil =>
    simp only [List.nil_append, cutLines, if_true, List.singleton_append]
  | cons symbol stream inductionHypothesis =>
    have head : (stream ++ feed :: rest).head? = (stream ++ [feed]).head? := by
      cases stream <;> rfl
    simp only [List.cons_append, cutLines, head]
    by_cases ends : symbol = feed
    · rw [if_pos ends, if_pos ends, inductionHypothesis, List.cons_append]
    · rw [if_neg ends, if_neg ends]
      by_cases mark : symbol = carriage ∧ (stream ++ [feed]).head? = some feed
      · rw [if_pos mark, if_pos mark, inductionHypothesis]
      · rw [if_neg mark, if_neg mark, inductionHypothesis]
        obtain ⟨line, others, lines⟩ :=
          List.exists_cons_of_ne_nil (cutLines_feed_ne_nil feed carriage stream [])
        rw [lines]
        rfl

namespace Text

/-- A text that is empty or ends its last line is cut apart from whatever follows. -/
theorem lines_append {first : Text} (second : Text)
    (whole : first = [] ∨ first.getLast? = some '\n') :
    lines (first ++ second) = lines first ++ lines second := by
  rcases whole with rfl | last
  · rfl
  · obtain ⟨front, rfl⟩ := List.getLast?_eq_some_iff.mp last
    rw [lines, List.append_assoc, List.singleton_append, cutLines_append_feed]
    rfl

/-! ### Texts put together from lines -/

theorem unlines_cons (line : Text) (lines : List Text) :
    unlines (line :: lines) = line ++ '\n' :: unlines lines := by
  rw [unlines, List.flatMap_cons, List.append_assoc, List.singleton_append, unlines]

theorem unlines_append (first second : List Text) :
    unlines (first ++ second) = unlines first ++ unlines second :=
  List.flatMap_append

/-- A text put together from lines ends the last of them. -/
theorem unlines_ends (lines : List Text) :
    unlines lines = [] ∨ (unlines lines).getLast? = some '\n' := by
  rcases List.eq_nil_or_concat lines with rfl | ⟨front, last, rfl⟩
  · exact Or.inl rfl
  · refine Or.inr ?_
    rw [List.concat_eq_append, unlines_append, unlines_cons, List.getLast?_append,
      List.getLast?_append]
    rfl

/-- A text put together from lines without line feeds falls into them again, with nothing
behind the last line feed. -/
theorem splitOn_unlines {lines : List Text} (noFeed : ∀ line ∈ lines, '\n' ∉ line) :
    (unlines lines).splitOn '\n' = lines ++ [[]] := by
  induction lines with
  | nil => rfl
  | cons line lines inductionHypothesis =>
    rw [unlines_cons, List.splitOn_append_cons_self,
      List.splitOn_eq_singleton (noFeed line List.mem_cons_self),
      inductionHypothesis fun other member => noFeed other (List.mem_cons_of_mem _ member)]
    rfl

end Text

/-! ### White space at the ends of lines -/

/-- What is left behind the last line feed is a line as it is. -/
theorem cutLines_of_not_mem {Symbol : Type} [DecidableEq Symbol] {feed : Symbol}
    (carriage : Symbol) {stream : List Symbol} (noFeed : feed ∉ stream) (solid : stream ≠ []) :
    cutLines feed carriage stream = [stream] := by
  induction stream with
  | nil => exact absurd rfl solid
  | cons symbol rest inductionHypothesis =>
    rw [List.mem_cons, not_or] at noFeed
    have noMark : ¬(symbol = carriage ∧ rest.head? = some feed) := fun mark =>
      noFeed.2 (List.mem_of_head? mark.2)
    rw [cutLines, if_neg (Ne.symm noFeed.1), if_neg noMark]
    cases rest with
    | nil => rfl
    | cons next rest => rw [inductionHypothesis noFeed.2 (List.cons_ne_nil _ _)]

namespace Text

/-- A line that is ended is cut as it is, but for a carriage return at its end. -/
theorem exists_lines_feed {line : Text} (noFeed : '\n' ∉ line) :
    ∃ cut : Text, lines (line ++ ['\n']) = [cut] ∧ trimEnd cut = trimEnd line := by
  induction line with
  | nil => exact ⟨[], rfl, rfl⟩
  | cons character line inductionHypothesis =>
    rw [List.mem_cons, not_or] at noFeed
    obtain ⟨cut, alone, trimmed⟩ := inductionHypothesis noFeed.2
    by_cases mark : character = '\r' ∧ (line ++ ['\n']).head? = some '\n'
    · obtain rfl : line = [] := by
        cases line with
        | nil => rfl
        | cons next line =>
          obtain rfl : next = '\n' := Option.some.inj mark.2
          exact absurd List.mem_cons_self noFeed.2
      exact ⟨[], by rw [mark.1]; rfl, by rw [mark.1]; rfl⟩
    · refine ⟨character :: cut, ?_, trimEnd_append_congr [character] trimmed⟩
      rw [lines] at alone ⊢
      rw [List.cons_append, cutLines, if_neg (Ne.symm noFeed.1), if_neg mark, alone]

theorem map_trimEnd_lines_feed {line : Text} (noFeed : '\n' ∉ line) (rest : Text) :
    (lines (line ++ '\n' :: rest)).map trimEnd = trimEnd line :: (lines rest).map trimEnd := by
  obtain ⟨cut, alone, trimmed⟩ := exists_lines_feed noFeed
  rw [lines, cutLines_append_feed, ← lines, alone, ← trimmed]
  rfl

/-- Texts that differ only in the white space at the ends of their lines, carriage returns in
front of line feeds included. So a text differs from one with white space appended to any of
its lines. The last line may be one that is not ended. -/
inductive SameButForEnds : Text → Text → Prop
  | nil : SameButForEnds [] []
  | last {line other : Text} (solid : line ≠ []) (otherSolid : other ≠ []) (noFeed : '\n' ∉ line)
      (otherNoFeed : '\n' ∉ other) (same : trimEnd line = trimEnd other) :
      SameButForEnds line other
  | line {line other rest further : Text} (noFeed : '\n' ∉ line) (otherNoFeed : '\n' ∉ other)
      (same : trimEnd line = trimEnd other) (behind : SameButForEnds rest further) :
      SameButForEnds (line ++ '\n' :: rest) (other ++ '\n' :: further)

/-- The lines of such texts are the same but for the white space at their ends. -/
theorem SameButForEnds.map_trimEnd_lines {text other : Text} (alike : SameButForEnds text other) :
    (lines text).map trimEnd = (lines other).map trimEnd := by
  induction alike with
  | nil => rfl
  | last solid otherSolid noFeed otherNoFeed same =>
    rw [lines, lines, cutLines_of_not_mem '\r' noFeed solid,
      cutLines_of_not_mem '\r' otherNoFeed otherSolid, List.map_singleton, List.map_singleton, same]
  | line noFeed otherNoFeed same behind inductionHypothesis =>
    rw [map_trimEnd_lines_feed noFeed, map_trimEnd_lines_feed otherNoFeed, same,
      inductionHypothesis]

/-- A text with a carriage return in front of every line feed. -/
def withCarriages (text : Text) : Text :=
  text.flatMap fun character => if character = '\n' then ['\r', '\n'] else [character]

/-- Carriage returns in front of the line feeds are white space at the ends of the lines. -/
theorem sameButForEnds_withCarriages (text : Text) :
    SameButForEnds text (withCarriages text) := by
  -- The induction goes along the text; `front` is what it has come through of a line.
  suffices behind : ∀ front : Text, '\n' ∉ front →
      SameButForEnds (front ++ text) (front ++ withCarriages text) from behind [] List.not_mem_nil
  induction text with
  | nil =>
    intro front noFeed
    rw [withCarriages, List.flatMap_nil, List.append_nil]
    rcases List.eq_nil_or_concat front with rfl | ⟨_, _, rfl⟩
    · exact .nil
    · exact .last (by simp) (by simp) noFeed noFeed rfl
  | cons character text inductionHypothesis =>
    intro front noFeed
    by_cases feed : character = '\n'
    · have marked : withCarriages (character :: text) = ['\r'] ++ '\n' :: withCarriages text := by
        rw [withCarriages, List.flatMap_cons, if_pos feed]
        rfl
      have otherNoFeed : '\n' ∉ front ++ ['\r'] := by
        rw [List.mem_append, not_or]
        exact ⟨noFeed, by decide⟩
      have blank : isBlank ['\r'] = true := rfl
      rw [marked, feed, ← List.append_assoc]
      exact .line noFeed otherNoFeed (trimEnd_append_of_isBlank front blank).symm
        (inductionHypothesis [] List.not_mem_nil)
    · have kept : withCarriages (character :: text) = [character] ++ withCarriages text := by
        rw [withCarriages, List.flatMap_cons, if_neg feed]
        rfl
      have longer : '\n' ∉ front ++ [character] := by
        rw [List.mem_append, not_or, List.mem_singleton]
        exact ⟨noFeed, Ne.symm feed⟩
      rw [kept, ← List.append_assoc, ← List.singleton_append, ← List.append_assoc]
      exact inductionHypothesis _ longer

end Text

end Manuscript
