/-
This file is about the spacing of a document. What a line of the manuscript takes up on the
page is so many empty lines, which pad it or set it apart, and the physical lines of its
text. The spacing and the choice to keep blank lines have a part in the number of empty
lines only: neither the text of a line nor the places where it is broken depend on them.
So all spacings have the same lines once the empty ones are taken out, and double spacing
is single spacing with an empty line behind every physical line of text, and behind no
other.
-/

import Manuscript.Proofs.Layout.Content

namespace Manuscript

namespace Layout

/-! ### The share of a line -/

/-- What a line of the manuscript takes up on the page: the number of empty lines that pad it or
set it apart, and the physical lines of its text behind them. -/
structure Share where
  empties : Nat
  text : List Text
  deriving DecidableEq, Repr

namespace Share

/-- The physical lines of the share at single spacing. -/
def single (share : Share) : List Text :=
  List.replicate share.empties [] ++ share.text

/-- The physical lines of the share with an empty line behind every one that holds text, and
behind no other. -/
def double (share : Share) : List Text :=
  List.replicate share.empties [] ++ share.text.flatMap fun line => [line, []]

end Share

/-- The share of a line. A blank line may set apart what is around it, and a line of which
nothing is visible has no share at all. -/
def shareOf (options : Options) (context : Context) (visible : Text) : Share :=
  let words := Text.tidy visible
  match context.line with
  | .blank => ⟨(blankLines options context).length, []⟩
  | .tagged tag =>
    if words.isEmpty then ⟨0, []⟩
    else
      let text := renderTag tag words
      ⟨paddingOfTag tag, if text.isEmpty then [] else wrap pageWidth text⟩
  | .prose =>
    if words.isEmpty then ⟨0, []⟩
    else ⟨paddingOfProse options context, wrap pageWidth (renderProse options context words)⟩

theorem spaced_nil (options : Options) : spaced options [] = [] := by
  rw [spaced]
  split <;> rfl

theorem blankLines_eq_replicate (options : Options) (context : Context) :
    blankLines options context = List.replicate (blankLines options context).length [] := by
  rw [blankLines]
  split <;> rfl

/-- Only the text of a line is spaced. -/
theorem linesOf_eq_share (options : Options) (context : Context) (visible : Text) :
    linesOf options context visible =
      List.replicate (shareOf options context visible).empties [] ++
        spaced options (shareOf options context visible).text := by
  have nothing : ([] : List Text) = List.replicate 0 [] ++ spaced options [] :=
    (spaced_nil options).symm
  unfold linesOf shareOf
  cases context.line with
  | blank =>
    simp only [spaced_nil, List.append_nil]
    exact blankLines_eq_replicate options context
  | tagged tag =>
    simp only
    split
    · exact nothing
    · refine congrArg _ ?_
      split
      · exact (spaced_nil options).symm
      · rfl
  | prose =>
    simp only
    split
    · exact nothing
    · rfl

/-! ### Shares at other spacings -/

/-- The text of a line is the same whatever the spacing is and whether blank lines are kept. -/
theorem text_shareOf_respaced (options : Options) (spacing : Spacing) (removeBlankLines : Bool)
    (context : Context) (visible : Text) :
    (shareOf { options with spacing := spacing, removeBlankLines := removeBlankLines } context
        visible).text = (shareOf options context visible).text := by
  unfold shareOf
  cases context.line with
  | blank | tagged tag => rfl
  | prose =>
    simp only
    split <;> rfl

/-- Every line has the share at double spacing that it has at single spacing. -/
theorem shareOf_double (options : Options) (context : Context) (visible : Text) :
    shareOf { options with spacing := .double } context visible =
      shareOf { options with spacing := .single } context visible := rfl

end Layout

/-! ### Whole manuscripts -/

namespace Compiler

/-- The shares of some lines. -/
def shares : Compiler → List Text → List Layout.Share
  | _, [] => []
  | compiler, raw :: rest =>
    Layout.shareOf compiler.options (compiler.context.advance raw) (compiler.visible raw) ::
      shares (compiler.advance raw) rest

theorem layOutAll_eq_shares (compiler : Compiler) (lines : List Text) :
    compiler.layOutAll lines = (compiler.shares lines).flatMap fun share =>
      List.replicate share.empties [] ++ Layout.spaced compiler.options share.text := by
  induction lines generalizing compiler with
  | nil => rfl
  | cons raw rest inductionHypothesis =>
    rw [layOutAll, shares, List.flatMap_cons, inductionHypothesis, layOut, Layout.linesOf_eq_share]
    rfl

/-- The compiler with other options. -/
def withOptions (compiler : Compiler) (options : Options) : Compiler :=
  { compiler with options := options }

/-- What is the same of the share of every line is the same of all shares. -/
theorem map_shares_withOptions {Value : Type} (view : Layout.Share → Value) {first second : Options}
    (same : ∀ context visible, view (Layout.shareOf first context visible) =
      view (Layout.shareOf second context visible))
    (compiler : Compiler) (lines : List Text) :
    ((compiler.withOptions first).shares lines).map view =
      ((compiler.withOptions second).shares lines).map view := by
  induction lines generalizing compiler with
  | nil => rfl
  | cons raw rest inductionHypothesis =>
    rw [shares, shares, List.map_cons, List.map_cons]
    exact congrArg₂ List.cons (same _ _) (inductionHypothesis (compiler.advance raw))

end Compiler

namespace Text

/-- The lines of a text that are not empty. -/
def solidLines (text : Text) : List Text :=
  (text.splitOn '\n').filter (· ≠ [])

theorem solidLines_unlines {lines : List Text} (noFeed : ∀ line ∈ lines, '\n' ∉ line) :
    solidLines (unlines lines) = lines.filter (· ≠ []) := by
  rw [solidLines, splitOn_unlines noFeed, List.filter_append]
  exact List.append_nil _

end Text

namespace Layout

/-- Empty lines, wherever they come from, are taken out. -/
theorem filter_share (options : Options) (share : Share) :
    (List.replicate share.empties [] ++ spaced options share.text).filter (· ≠ []) =
      share.text.filter (· ≠ []) := by
  rw [List.filter_append, List.filter_replicate_of_neg (by simp), List.nil_append, spaced]
  split
  · have single (line : Text) : [line, []].filter (· ≠ []) = [line].filter (· ≠ []) := by
      cases line <;> rfl
    rw [List.filter_flatMap]
    simp only [single]
    rw [← List.filter_flatMap, List.flatMap_singleton']
  · rfl

end Layout

theorem solidLines_compiled (options : Options) (source : Text) :
    Text.solidLines (compiled options source) =
      (((Compiler.new options .none).begin.shares (Text.lines source)).map Layout.Share.text).flatMap
        fun text => text.filter (· ≠ []) := by
  have holds := (Compiler.new options .none).begin.holds_layOutAll (Text.lines source)
  rw [compiled, written_compileText, Text.solidLines_unlines holds.noFeed,
    Compiler.layOutAll_eq_shares, List.filter_flatMap, List.flatMap_map]
  simp only [Layout.filter_share]

/-- Spacing only puts in empty lines. A manuscript has the same lines but for the empty ones,
whatever spacing is chosen and whether blank lines are kept. At double spacing every physical
line of text has one empty line behind it that is not there at single spacing, and there is no
other difference. -/
theorem compiled_respaced (options : Options) (source : Text) :
    (∀ (spacing : Spacing) (removeBlankLines : Bool),
        let other := { options with spacing := spacing, removeBlankLines := removeBlankLines }
        Text.solidLines (compiled other source) = Text.solidLines (compiled options source)) ∧
      let single := { options with spacing := .single }
      let double := { options with spacing := .double }
      let shares := (Compiler.new single .none).begin.shares (Text.lines source)
      compiled single source = Text.unlines (shares.flatMap Layout.Share.single) ∧
        compiled double source = Text.unlines (shares.flatMap Layout.Share.double) := by
  refine ⟨fun spacing removeBlankLines => ?_, ?_, ?_⟩
  · intro other
    have text := Compiler.map_shares_withOptions Layout.Share.text
      (Layout.text_shareOf_respaced options spacing removeBlankLines)
      (Compiler.new options .none).begin (Text.lines source)
    rw [solidLines_compiled, solidLines_compiled]
    exact congrArg _ text
  · rw [compiled, written_compileText, Compiler.layOutAll_eq_shares]
    rfl
  · have shares := Compiler.map_shares_withOptions id (Layout.shareOf_double options)
      (Compiler.new options .none).begin (Text.lines source)
    rw [List.map_id, List.map_id] at shares
    rw [compiled, written_compileText, Compiler.layOutAll_eq_shares]
    exact congrArg (fun shares => Text.unlines (shares.flatMap Layout.Share.double)) shares

end Manuscript
