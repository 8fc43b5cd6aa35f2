/-
This file is about a line that is stripped a part at a time. The pieces of a line are found
by looking ahead, and plain text is gathered into runs, so a piece of the whole line can lie
across the place where it is cut. A run of plain text is kept or hidden character by
character, and it does not matter whether it is cut. A mark or an escape is cut only if hashes
and backslashes stand in front of the cut and characters of a mark behind it. Anywhere else
the two parts say what the whole line says, with the open block carried over, and a line mark
in the first part hides the second.
-/

import Manuscript.Proofs.Aside.Reading

namespace Manuscript

namespace Mark

/-! ### Where no mark is cut -/

/-- A text goes on with another, and no mark or escape lies across the cut because one of the
two has no part in any there: the first ends in neither a hash nor a backslash, or the second
begins with none of the characters that marks and escapes are made of. -/
def PlainSeam (front back : Text) : Prop :=
  (∀ last ∈ front.getLast?, last ≠ '#' ∧ last ≠ '\\') ∨
    ∀ first ∈ back.head?, first ≠ '#' ∧ first ≠ '[' ∧ first ≠ ']' ∧ first ≠ '\\'

instance (front back : Text) : Decidable (PlainSeam front back) :=
  @instDecidableOr _ _ (Option.decidableForallMem _) (Option.decidableForallMem _)

namespace PlainSeam

variable (piece : Text) {rest back : Text}

/-- The cut is the same behind a piece that is taken off in front. -/
theorem behind (seam : PlainSeam (piece ++ rest) back) : PlainSeam rest back := by
  cases rest with
  | nil => exact Or.inl fun last member => by cases member
  | cons first rest => rwa [PlainSeam, List.getLast?_append_cons] at seam

/-- A piece that ends in a hash or a backslash is not followed by a character that it could go
on with only because the line is put together. -/
theorem not_cons (seam : PlainSeam (piece ++ rest) back)
    (loose : piece.getLast? = some '#' ∨ piece.getLast? = some '\\') {character : Char}
    (part : character ∈ ['#', '[', ']', '\\'])
    (apart : ∀ tail, rest = character :: tail → False) (tail : Text) :
    rest ++ back = character :: tail → False := by
  intro goesOn
  cases rest with
  | cons first rest => exact apart rest (by rw [(List.cons.inj goesOn).1])
  | nil =>
    rw [List.append_nil] at seam
    rcases seam with closed | plain
    · rcases loose with hash | slash
      · exact (closed _ hash).1 rfl
      · exact (closed _ slash).2 rfl
    · have differs := plain character (by rw [← List.nil_append back, goesOn]; rfl)
      simp only [List.mem_cons, List.not_mem_nil, or_false] at part
      rcases part with rfl | rfl | rfl | rfl <;> simp at differs

/-- The same for two hashes. -/
theorem not_hashes (seam : PlainSeam (piece ++ rest) back)
    (loose : piece.getLast? = some '#' ∨ piece.getLast? = some '\\')
    (apart : ∀ tail, rest = '#' :: '#' :: tail → False) (tail : Text) :
    rest ++ back = '#' :: '#' :: tail → False := by
  cases rest with
  | nil => exact seam.not_cons piece loose (by decide) (fun _ => nofun) ('#' :: tail)
  | cons first rest =>
    intro goesOn
    obtain ⟨rfl, second⟩ := List.cons.inj goesOn
    rw [List.append_cons] at seam
    refine seam.not_cons (piece ++ ['#']) (Or.inl List.getLast?_concat) (by decide) ?_ tail second
    exact fun tail same => apart tail (by rw [same])

end PlainSeam

end Mark

theorem Token.ofLine_plain {character : Char} (hash : character ≠ '#') (opens : character ≠ '[')
    (closes : character ≠ ']') (slash : character ≠ '\\') (rest : Text) :
    ofLine (character :: rest) = consPlain character (ofLine rest) := by
  rw [ofLine] <;> intros <;> contradiction

namespace Block

/-! ### One piece of a line -/

/-- The block that is open behind a piece. -/
def behindPiece : Block → TokenKind → Block
  | .visible, .blockMark => .comment
  | .visible, .openBracket => .bracket
  | .comment, .blockMark => .visible
  | .bracket, .closeBracket => .visible
  | block, _ => block

/-- What is kept of a piece. -/
def shown (block : Block) (token : Token) : Text :=
  match block, token.kind with
  | .visible, .blockMark | .visible, .openBracket | .visible, .lineMark => []
  | .visible, _ => token.lexeme
  | .comment, _ | .bracket, _ => []

/-- The reading ends at a line mark where text is visible, and goes on behind any other piece. -/
theorem read_cons (block : Block) (token : Token) (tokens : List Token) :
    block.read (token :: tokens) =
      if block = .visible ∧ token.kind = .lineMark then ([], .visible)
      else
        let reading := (block.behindPiece token.kind).read tokens
        (block.shown token ++ reading.1, reading.2) := by
  obtain ⟨kind, lexeme⟩ := token
  cases block <;> cases kind <;> rfl

theorem read_cons_congr {tokens others : List Token}
    (same : ∀ block : Block, block.read tokens = block.read others) (block : Block)
    (token : Token) : block.read (token :: tokens) = block.read (token :: others) := by
  rw [read_cons, read_cons, same]

/-! ### Pieces one after another -/

/-- Among the pieces there is a line mark where text is visible. -/
def StopsIn (block : Block) (tokens : List Token) : Prop :=
  ∃ before found after, tokens = before ++ found :: after ∧ found.kind = .lineMark ∧
    (block.read before).2 = .visible

theorem not_stopsIn_nil (block : Block) : ¬block.StopsIn [] := by
  rintro ⟨before, found, after, whole, -⟩
  exact List.append_ne_nil_of_right_ne_nil before (List.cons_ne_nil found after) whole.symm

theorem stopsIn_cons (block : Block) (token : Token) (tokens : List Token) :
    block.StopsIn (token :: tokens) ↔
      block = .visible ∧ token.kind = .lineMark ∨
        (block.behindPiece token.kind).StopsIn tokens := by
  constructor
  · rintro ⟨_ | ⟨first, before⟩, found, after, whole, mark, visible⟩
    · obtain ⟨rfl, -⟩ := List.cons.inj whole
      exact Or.inl ⟨visible, mark⟩
    · obtain ⟨rfl, behind⟩ := List.cons.inj whole
      by_cases here : block = .visible ∧ token.kind = .lineMark
      · exact Or.inl here
      · rw [read_cons, if_neg here] at visible
        exact Or.inr ⟨before, found, after, behind, mark, visible⟩
  · rintro (⟨visible, mark⟩ | ⟨before, found, after, rfl, mark, visible⟩)
    · exact ⟨[], token, tokens, rfl, mark, visible⟩
    · refine ⟨token :: before, found, after, rfl, mark, ?_⟩
      -- If the reading has ended at the first piece, text is visible all the same.
      rw [read_cons]
      split
      · rfl
      · exact visible

instance decidableStopsIn (block : Block) : (tokens : List Token) →
    Decidable (block.StopsIn tokens)
  | [] => .isFalse block.not_stopsIn_nil
  | token :: tokens =>
    have := decidableStopsIn (block.behindPiece token.kind) tokens
    decidable_of_iff _ (stopsIn_cons block token tokens).symm

variable {block : Block} {tokens : List Token}

/-- Behind a line mark where text is visible nothing is read. -/
theorem StopsIn.read_append (stops : block.StopsIn tokens) (more : List Token) :
    block.read (tokens ++ more) = block.read tokens ∧ (block.read tokens).2 = .visible := by
  induction tokens generalizing block with
  | nil => exact absurd stops block.not_stopsIn_nil
  | cons token tokens inductionHypothesis =>
    rw [List.cons_append, read_cons, read_cons]
    split
    · exact ⟨rfl, rfl⟩
    · rename_i goesOn
      have further := ((stopsIn_cons block token tokens).mp stops).resolve_left goesOn
      obtain ⟨same, visible⟩ := inductionHypothesis further
      exact ⟨by rw [same], visible⟩

/-- Without such a mark the reading goes on behind the pieces, with the block that is open
there. -/
theorem read_append (goesOn : ¬block.StopsIn tokens) (more : List Token) :
    block.read (tokens ++ more) =
      ((block.read tokens).1 ++ ((block.read tokens).2.read more).1,
        ((block.read tokens).2.read more).2) := by
  induction tokens generalizing block with
  | nil => cases block <;> rfl
  | cons token tokens inductionHypothesis =>
    rw [stopsIn_cons, not_or] at goesOn
    obtain ⟨here, further⟩ := goesOn
    simp only [List.cons_append, read_cons, if_neg here, inductionHypothesis further,
      List.append_assoc]

/-! ### The pieces of a line that is put together -/

/-- The pieces of the two parts say what the pieces of the whole line say. -/
theorem read_ofLine_append {front back : Text} (seam : Mark.PlainSeam front back)
    (block : Block) :
    block.read (Token.ofLine (front ++ back)) =
      block.read (Token.ofLine front ++ Token.ofLine back) := by
  -- Each piece of the first part is one of the whole line: where it would be a longer piece with
  -- what follows, it is not followed by that behind the cut either.
  fun_induction Token.ofLine front generalizing block with
  | case1 => rfl
  | case2 rest behind =>
    exact read_cons_congr (behind (seam.behind [_, _, _])) block _
  | case3 rest noHash behind =>
    have noHash := seam.not_cons [_, _] (.inl rfl) (by decide) noHash
    simp only [List.cons_append, Token.ofLine]
    exact read_cons_congr (behind (seam.behind [_, _])) block _
  | case4 rest noHashes noHash behind =>
    have noHashes := seam.not_hashes [_] (.inl rfl) noHashes
    have noHash := seam.not_cons [_] (.inl rfl) (by decide) noHash
    simp only [List.cons_append, Token.ofLine]
    exact read_cons_congr (behind (seam.behind [_])) block _
  | case5 rest behind | case6 rest behind =>
    exact read_cons_congr (behind (seam.behind [_])) block _
  | case7 rest behind | case10 rest behind | case11 rest behind =>
    exact read_cons_congr (behind (seam.behind [_, _])) block _
  | case8 rest behind =>
    exact read_cons_congr (behind (seam.behind [_, _, _, _])) block _
  | case9 rest noHash behind =>
    have noHash := seam.not_cons [_, _, _] (.inl rfl) (by decide) noHash
    simp only [List.cons_append, Token.ofLine]
    exact read_cons_congr (behind (seam.behind [_, _, _])) block _
  | case12 rest noSlash _ noHashes noOpen noClose behind =>
    have noSlash := seam.not_cons [_] (.inr rfl) (by decide) noSlash
    have noOpen := seam.not_cons [_] (.inr rfl) (by decide) noOpen
    have noClose := seam.not_cons [_] (.inr rfl) (by decide) noClose
    have noHashes := seam.not_hashes [_] (.inr rfl) noHashes
    have noMark : ∀ tail, rest ++ back = '#' :: '#' :: '#' :: tail → False :=
      fun tail => noHashes ('#' :: tail)
    simp only [List.cons_append, Token.ofLine]
    exact read_cons_congr (behind (seam.behind [_])) block _
  | case13 character rest _ _ hash opens closes _ _ _ _ _ slash behind =>
    rw [List.cons_append, Token.ofLine_plain hash opens closes slash, read_consPlain,
      read_consPlain_append, behind (seam.behind [_])]

/-- A line that is cut where no mark or escape is may be stripped a part at a time, whatever
block it begins in. If no line mark stands in the first part where text is visible, what is
kept of the line is what is kept of the two parts, the second of which begins in the block that
is open behind the first, and the same block is open at the end. If there is one, all of the
second part is hidden, and text is visible behind the line. -/
theorem strip_parted {front back : Text} (seam : Mark.PlainSeam front back) (block : Block) :
    let reading := block.strip front
    (¬block.StopsIn (Token.ofLine front) →
      block.strip (front ++ back) =
        (reading.1 ++ (reading.2.strip back).1, (reading.2.strip back).2)) ∧
      (block.StopsIn (Token.ofLine front) →
        block.strip (front ++ back) = reading ∧ reading.2 = .visible) := by
  intro reading
  have whole : block.strip (front ++ back) =
      block.read (Token.ofLine front ++ Token.ofLine back) := read_ofLine_append seam block
  constructor
  · intro goesOn
    rw [whole, read_append goesOn]
    rfl
  · intro stops
    rw [whole]
    exact stops.read_append _

/-- A cut right in front of the mark that closes a comment, and one behind a backslash and a hash
that a line mark hides. -/
theorem strip_parted_beside_hashes :
    (Mark.PlainSeam "a ### b".toList "### c".toList ∧
      ¬Block.visible.StopsIn (Token.ofLine "a ### b".toList) ∧
      Block.visible.strip "a ### b### c".toList = ("a  c".toList, .visible)) ∧
    (Mark.PlainSeam "a ##\\#".toList "b ### c".toList ∧
      Block.visible.StopsIn (Token.ofLine "a ##\\#".toList) ∧
      Block.visible.strip "a ##\\#b ### c".toList = ("a ".toList, .visible)) := by
  have closed : Mark.PlainSeam "a ### b".toList "### c".toList := by decide
  have hidden : Mark.PlainSeam "a ##\\#".toList "b ### c".toList := by decide
  have goesOn : ¬Block.visible.StopsIn (Token.ofLine "a ### b".toList) := by decide
  have stops : Block.visible.StopsIn (Token.ofLine "a ##\\#".toList) := by decide
  exact ⟨⟨closed, goesOn, (strip_parted closed .visible).1 goesOn⟩,
    hidden, stops, ((strip_parted hidden .visible).2 stops).1⟩

end Block

end Manuscript
