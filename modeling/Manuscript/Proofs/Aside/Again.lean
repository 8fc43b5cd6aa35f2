/-
This file is about stripping a line a second time. What is kept of a line is put together
from the stretches around its hidden blocks, and characters that stood apart become neighbours
there. A backslash gets nothing to escape that way, for one that escapes nothing is never the
last character in front of a hidden block, and a bracket that was escaped stays so. But single
hashes are kept on both sides, and together they can be a mark. This is the only way in which
a live mark comes about, so nothing more is stripped of what is kept unless hashes meet.
-/

import Manuscript.Proofs.Aside.Bare

namespace Manuscript

namespace Block

/-! ### The stretches that are kept -/

/-- The stretches of text that are kept of the pieces of a line, one more wherever a hidden
block begins. -/
def stretches : Block → List Token → List Text
  | .visible, [] => [[]]
  | .comment, [] | .bracket, [] => []
  | .visible, token :: rest =>
    match token.kind with
    | .blockMark => [] :: stretches .comment rest
    | .openBracket => [] :: stretches .bracket rest
    | .lineMark => [[]]
    | _ => (stretches .visible rest).modifyHead (token.lexeme ++ ·)
  | .comment, token :: rest =>
    match token.kind with
    | .blockMark => stretches .visible rest
    | _ => stretches .comment rest
  | .bracket, token :: rest =>
    match token.kind with
    | .closeBracket => stretches .visible rest
    | _ => stretches .bracket rest

/-- Where text is visible the first stretch begins right away, with what stands there. -/
theorem exists_stretches (tokens : List Token) :
    ∃ first others, Block.visible.stretches tokens = first :: others ∧
      first <+: tokens.flatMap Token.lexeme := by
  induction tokens with
  | nil => exact ⟨[], [], rfl, List.nil_prefix⟩
  | cons token tokens inductionHypothesis =>
    obtain ⟨first, others, same, front⟩ := inductionHypothesis
    obtain ⟨kind, lexeme⟩ := token
    cases kind with
    | blockMark | openBracket | lineMark => exact ⟨[], _, rfl, List.nil_prefix⟩
    | _ =>
      refine ⟨lexeme ++ first, others, ?_, ?_⟩
      · simp only [stretches, same, List.modifyHead_cons]
      · exact (List.prefix_append_right_inj lexeme).mpr front

/-- The stretches, put together, are what is kept. -/
theorem flatten_stretches (block : Block) (tokens : List Token) :
    (block.stretches tokens).flatten = (block.read tokens).1 := by
  induction tokens generalizing block with
  | nil => cases block <;> rfl
  | cons token tokens inductionHypothesis =>
    obtain ⟨kind, lexeme⟩ := token
    obtain ⟨first, others, same, _⟩ := exists_stretches tokens
    have visible := inductionHypothesis .visible
    rw [same] at visible
    cases block <;> cases kind <;>
      simp [stretches, read, same, inductionHypothesis, ← visible]

/-- Somewhere between two stretches hashes make a live mark together: what is kept so far ends
in hashes that would be one with one hash more, and what is kept next begins with a hash. -/
def HashesMeet (line : Text) : Prop :=
  ∃ before after, Block.visible.stretches (Token.ofLine line) = before ++ after ∧
    Mark.EndsLoose before.flatten ∧ after.flatten.head? = some '#'

/-! ### Where a mark can be completed -/

/-- Put behind the text, the stretches complete a live mark only with a hash, and only where
one stretch begins. -/
def CompletedAtSeams (front : Text) (parts : List Text) : Prop :=
  ∀ between character back, parts.flatten = between ++ character :: back →
    Mark.Completes (front ++ between) character →
      character = '#' ∧ ∃ before after, parts = before ++ after ∧ before.flatten = between

theorem CompletedAtSeams.of_flatten_eq_nil (front : Text) {parts : List Text}
    (nothing : parts.flatten = []) : CompletedAtSeams front parts := by
  intro between character back whole
  rw [nothing] at whole
  exact absurd whole.symm (List.append_ne_nil_of_right_ne_nil _ (List.cons_ne_nil _ _))

/-- A stretch may be empty. -/
theorem CompletedAtSeams.nil_cons {front : Text} {parts : List Text}
    (seams : CompletedAtSeams front parts) : CompletedAtSeams front ([] :: parts) := by
  intro between character back whole completes
  obtain ⟨hash, before, after, divided, same⟩ := seams between character back whole completes
  exact ⟨hash, [] :: before, after, by rw [divided]; rfl, same⟩

/-- A stretch may begin with one more character, if that is no opening bracket that counts and
does not end in a run of hashes that the stretch would go on with. -/
theorem CompletedAtSeams.cons {front first : Text} {character : Char} {others : List Text}
    (seams : CompletedAtSeams (front ++ [character]) (first :: others))
    (escaped : character = '[' → Text.runAtEnd '\\' front % 2 = 1)
    (apart : first.head? = some '#' → ¬Mark.EndsLoose (front ++ [character])) :
    CompletedAtSeams front ((character :: first) :: others) := by
  intro between other back whole completes
  cases between with
  | nil =>
    obtain ⟨rfl, _⟩ := List.cons.inj whole
    rw [List.append_nil] at completes
    rcases completes with ⟨hash, _⟩ | ⟨opens, paired⟩
    · exact ⟨hash, [], _, rfl, rfl⟩
    · have unpaired := escaped opens
      omega
  | cons head between =>
    obtain ⟨rfl, wholeBehind⟩ := List.cons.inj whole
    rw [← List.singleton_append, ← List.append_assoc] at completes
    obtain ⟨hash, before, after, divided, same⟩ := seams between other back wholeBehind completes
    refine ⟨hash, ?_⟩
    cases before with
    | cons part before =>
      obtain ⟨rfl, rfl⟩ := List.cons.inj divided
      exact ⟨(character :: first) :: before, after, rfl, congrArg (character :: ·) same⟩
    | nil =>
      -- The mark would be completed right behind the character, so no stretch goes on there.
      subst same
      cases first with
      | nil => exact ⟨[[character]], others, rfl, rfl⟩
      | cons next first =>
        obtain ⟨sameNext, _⟩ := List.cons.inj wholeBehind
        rw [List.flatten_nil, List.append_nil] at completes
        rcases completes with ⟨_, loose⟩ | ⟨opens, _⟩
        · exact absurd loose (apart (congrArg some (sameNext.trans hash)))
        · exact absurd (hash.symm.trans opens) (by decide)

end Block

namespace Mark

theorem not_endsLoose_concat (text : Text) {last : Char} (noHash : last ≠ '#') :
    ¬EndsLoose (text ++ [last]) := by
  have loose := endsLoose_append_hashes (Text.runAtEnd_concat_of_ne noHash text) 0
  rw [List.replicate_zero, List.append_nil] at loose
  rw [loose, longestSilent]
  split <;> decide

/-- Up to three hashes behind a backslash that escapes them are no mark with one more. -/
theorem not_endsLoose_escaped {text : Text} (paired : Text.runAtEnd '\\' text % 2 = 0)
    {count : Nat} (few : count < 4) :
    ¬EndsLoose (text ++ ['\\'] ++ List.replicate count '#') := by
  rw [endsLoose_append_hashes (Text.runAtEnd_concat_of_ne (by decide) text),
    Text.runAtEnd_concat_self, longestSilent, if_neg (by omega)]
  omega

end Mark

namespace Block

/-! ### One piece of a line -/

/-- Behind a text that ends in a backslash without a partner a line goes on visibly, and with
none of what that backslash would escape. -/
def Fits (block : Block) (front line : Text) : Prop :=
  Text.runAtEnd '\\' front % 2 = 1 →
    block = .visible ∧ line.head? ≠ some '\\' ∧ line.head? ≠ some '[' ∧ ¬['#', '#', '#'] <+: line

theorem Fits.of_paired {front : Text} (paired : Text.runAtEnd '\\' front % 2 = 0) (block : Block)
    (line : Text) : Fits block front line :=
  fun unpaired => by omega

theorem Fits.of_last {last : Char} (piece : Text) (differs : last ≠ '\\') (front : Text)
    (block : Block) (line : Text) : Fits block (front ++ (piece ++ [last])) line := by
  refine Fits.of_paired ?_ block line
  rw [← List.append_assoc, Text.runAtEnd_concat_of_ne differs]

/-- In front of what a backslash would escape, and of what is hidden, all backslashes are
paired. -/
theorem Fits.paired {block : Block} {front line : Text} (fits : Fits block front line)
    (escapable : block ≠ .visible ∨ line.head? = some '\\' ∨ line.head? = some '[' ∨
      ['#', '#', '#'] <+: line) : Text.runAtEnd '\\' front % 2 = 0 := by
  by_contra unpaired
  obtain ⟨visible, noSlash, noOpen, noMark⟩ := fits (by omega)
  rcases escapable with hidden | slash | opens | mark
  · exact hidden visible
  · exact noSlash slash
  · exact noOpen opens
  · exact noMark mark

/-- Hashes that a backslash escapes, up to three of them, complete no mark. -/
theorem CompletedAtSeams.escaped_hashes {front first : Text} {others : List Text} (count : Nat)
    (paired : Text.runAtEnd '\\' front % 2 = 0) (few : count < 4)
    (seams : CompletedAtSeams (front ++ ['\\'] ++ List.replicate count '#') (first :: others)) :
    CompletedAtSeams front (('\\' :: List.replicate count '#' ++ first) :: others) := by
  suffices behind : CompletedAtSeams (front ++ ['\\'])
      ((List.replicate count '#' ++ first) :: others) from
    behind.cons (fun opens => absurd opens (by decide))
      fun _ => Mark.not_endsLoose_concat _ (by decide)
  induction count generalizing first with
  | zero =>
    rw [List.replicate_zero, List.append_nil] at seams
    exact seams
  | succ count inductionHypothesis =>
    rw [List.replicate_succ', ← List.append_assoc] at seams
    rw [List.replicate_succ', List.append_assoc]
    refine inductionHypothesis (by omega) (seams.cons (fun opens => absurd opens (by decide)) ?_)
    intro _
    have quiet := Mark.not_endsLoose_escaped paired few
    rwa [List.replicate_succ', ← List.append_assoc] at quiet

/-- A bracket or a backslash that a backslash escapes completes no mark. -/
theorem CompletedAtSeams.escaped {front first : Text} {others : List Text} {character : Char}
    (paired : Text.runAtEnd '\\' front % 2 = 0) (noHash : character ≠ '#')
    (seams : CompletedAtSeams (front ++ ['\\', character]) (first :: others)) :
    CompletedAtSeams front (('\\' :: character :: first) :: others) := by
  rw [List.append_cons] at seams
  refine (seams.cons (fun _ => ?_) ?_).cons ?_ ?_
  · rw [Text.runAtEnd_concat_self]
    omega
  · exact fun _ => Mark.not_endsLoose_concat _ noHash
  · exact fun opens => absurd opens (by decide)
  · exact fun _ => Mark.not_endsLoose_concat _ (by decide)

section Piece

variable {front rest : Text} (behind : ∀ block front, Fits block front rest →
  CompletedAtSeams front (block.stretches (Token.ofLine rest)))

include behind

/-- Inside a hidden block nothing is kept of a piece, so only the visible block matters. -/
theorem completedAtSeams_of_visible {block : Block} {line : Text} (token : Token)
    (fits : Fits block front line)
    (visible : Fits .visible front line →
      CompletedAtSeams front (Block.visible.stretches (token :: Token.ofLine rest))) :
    CompletedAtSeams front (block.stretches (token :: Token.ofLine rest)) := by
  obtain ⟨kind, lexeme⟩ := token
  cases block with
  | visible => exact visible fits
  | comment | bracket =>
    have paired := fits.paired (.inl (by decide))
    cases kind <;> exact behind _ _ (Fits.of_paired paired _ _)

/-- A piece that is kept continues the stretch behind it to the front. -/
theorem completedAtSeams_of_kept (piece : Text) (fits : Fits .visible (front ++ piece) rest)
    (join : ∀ first others, first <+: rest → CompletedAtSeams (front ++ piece) (first :: others) →
      CompletedAtSeams front ((piece ++ first) :: others)) :
    CompletedAtSeams front
      ((Block.visible.stretches (Token.ofLine rest)).modifyHead (piece ++ ·)) := by
  obtain ⟨first, others, same, start⟩ := exists_stretches (Token.ofLine rest)
  have seams := behind .visible (front ++ piece) fits
  rw [Token.lexemes_ofLine] at start
  rw [same] at seams ⊢
  exact join first others start seams

end Piece

/-! ### A whole line -/

theorem stretches_consPlain (block : Block) (character : Char) (tokens : List Token) :
    block.stretches (Token.consPlain character tokens) =
      block.stretches (⟨.plain, [character]⟩ :: tokens) := by
  fun_cases Token.consPlain character tokens with
  | case1 lexeme rest =>
    obtain ⟨first, others, same, _⟩ := exists_stretches rest
    cases block <;> simp [stretches, same]
  | case2 => rfl

/-- Wherever a line is cut, the stretches behind the cut complete a mark only where hashes
meet. -/
theorem completedAtSeams_stretches (block : Block) (front line : Text)
    (fits : Fits block front line) :
    CompletedAtSeams front (block.stretches (Token.ofLine line)) := by
  fun_induction Token.ofLine line generalizing block front with
  | case1 => cases block <;> exact .of_flatten_eq_nil front rfl
  | case2 rest behind =>
    refine completedAtSeams_of_visible behind _ fits fun fits => ?_
    have paired := fits.paired (.inr (.inr (.inr ⟨rest, rfl⟩)))
    exact (behind .comment front (Fits.of_paired paired _ _)).nil_cons
  | case3 rest _ behind =>
    refine completedAtSeams_of_visible behind _ fits fun _ => ?_
    exact .of_flatten_eq_nil front rfl
  | case4 rest _ noHash behind =>
    refine completedAtSeams_of_visible behind _ fits fun _ => ?_
    refine completedAtSeams_of_kept behind ['#'] (Fits.of_last [] (by decide) _ _ _) ?_
    intro first others start seams
    refine seams.cons (fun opens => absurd opens (by decide)) fun hash => ?_
    exact absurd (Text.head?_of_prefix start hash) (Text.head?_ne noHash)
  | case5 rest behind =>
    refine completedAtSeams_of_visible behind _ fits fun fits => ?_
    have paired := fits.paired (.inr (.inr (.inl rfl)))
    exact (behind .bracket front (Fits.of_paired paired _ _)).nil_cons
  | case6 rest behind =>
    refine completedAtSeams_of_visible behind _ fits fun _ => ?_
    refine completedAtSeams_of_kept behind [']'] (Fits.of_last [] (by decide) _ _ _) ?_
    intro first others _ seams
    exact seams.cons (fun opens => absurd opens (by decide))
      fun _ => Mark.not_endsLoose_concat _ (by decide)
  | case7 rest behind =>
    refine completedAtSeams_of_visible behind _ fits fun fits => ?_
    have paired := fits.paired (.inr (.inl rfl))
    refine completedAtSeams_of_kept behind ['\\', '\\'] (Fits.of_paired ?_ _ _) ?_
    · rw [List.append_cons, Text.runAtEnd_concat_self, Text.runAtEnd_concat_self]
      omega
    · exact fun first others _ seams => seams.escaped paired (by decide)
  | case8 rest behind =>
    refine completedAtSeams_of_visible behind _ fits fun fits => ?_
    have paired := fits.paired (.inr (.inl rfl))
    refine completedAtSeams_of_kept behind ['\\', '#', '#', '#'] ?_ fun first others _ seams => ?_
    · exact Fits.of_last ['\\', '#', '#'] (by decide) _ _ _
    · rw [List.append_cons] at seams
      exact seams.escaped_hashes 3 paired (by decide)
  | case9 rest _ behind =>
    refine completedAtSeams_of_visible behind _ fits fun fits => ?_
    have paired := fits.paired (.inr (.inl rfl))
    refine completedAtSeams_of_kept behind ['\\', '#', '#'] ?_ fun first others _ seams => ?_
    · exact Fits.of_last ['\\', '#'] (by decide) _ _ _
    · rw [List.append_cons] at seams
      exact seams.escaped_hashes 2 paired (by decide)
  | case10 rest behind =>
    refine completedAtSeams_of_visible behind _ fits fun fits => ?_
    have paired := fits.paired (.inr (.inl rfl))
    refine completedAtSeams_of_kept behind ['\\', '['] ?_ fun first others _ seams => ?_
    · exact Fits.of_last ['\\'] (by decide) _ _ _
    · exact seams.escaped paired (by decide)
  | case11 rest behind =>
    refine completedAtSeams_of_visible behind _ fits fun fits => ?_
    have paired := fits.paired (.inr (.inl rfl))
    refine completedAtSeams_of_kept behind ['\\', ']'] ?_ fun first others _ seams => ?_
    · exact Fits.of_last ['\\'] (by decide) _ _ _
    · exact seams.escaped paired (by decide)
  | case12 rest noSlash _ fewHashes noOpen noClose behind =>
    refine completedAtSeams_of_visible behind _ fits fun _ => ?_
    refine completedAtSeams_of_kept behind ['\\'] ?_ ?_
    · refine fun _ => ⟨rfl, Text.head?_ne noSlash, Text.head?_ne noOpen, ?_⟩
      rintro ⟨tail, rfl⟩
      exact fewHashes _ rfl
    · intro first others _ seams
      exact seams.cons (fun opens => absurd opens (by decide))
        fun _ => Mark.not_endsLoose_concat _ (by decide)
  | case13 character rest _ _ hash opens _ _ _ _ _ _ slash behind =>
    rw [stretches_consPlain]
    refine completedAtSeams_of_visible behind _ fits fun _ => ?_
    refine completedAtSeams_of_kept behind [character] (Fits.of_last [] slash _ _ _) ?_
    intro first others _ seams
    exact seams.cons (fun same => absurd same opens) fun _ => Mark.not_endsLoose_concat _ hash

/-- What is kept of a line holds no opening bracket that counts. It is bare if and only if no
hashes meet in it, and these are the lines of which stripping keeps again all that it has kept,
with no block open behind it. -/
theorem strip_kept_again (line : Text) :
    let kept := (Block.visible.strip line).1
    (∀ entry ∈ Mark.ofLine kept, entry.2 ≠ .openBracket) ∧
      (Mark.IsBare kept ↔ ¬HashesMeet line) ∧
      (Block.visible.strip kept = (kept, .visible) ↔ ¬HashesMeet line) := by
  intro kept
  have whole : (Block.visible.stretches (Token.ofLine line)).flatten = kept := flatten_stretches _ _
  have seams := completedAtSeams_stretches .visible [] line (Fits.of_paired rfl _ _)
  have bare : Mark.IsBare kept ↔ ¬HashesMeet line := by
    rw [Mark.isBare_iff]
    constructor
    · rintro bare ⟨before, after, divided, loose, hash⟩
      obtain ⟨back, begins⟩ := List.head?_eq_some_iff.mp hash
      refine bare before.flatten '#' back ?_ (Or.inl ⟨rfl, loose⟩)
      rw [← whole, divided, List.flatten_append, begins]
    · intro apart front character back same completes
      rw [← whole] at same
      obtain ⟨rfl, before, after, divided, rfl⟩ := seams front character back same completes
      rw [divided, List.flatten_append, List.append_cancel_left_eq] at same
      refine apart ⟨before, after, divided, ?_, by rw [same]; rfl⟩
      rcases completes with ⟨_, loose⟩ | ⟨opens, _⟩
      · exact loose
      · exact absurd opens (by decide)
  refine ⟨?_, bare, (strip_eq_self_iff kept).trans bare⟩
  rintro ⟨place, mark⟩ member (rfl : mark = .openBracket)
  obtain ⟨inside, here⟩ := Mark.mem_ofLine.mp member
  obtain ⟨bracket, paired⟩ := Mark.at?_eq_openBracket here
  obtain ⟨_, bracket⟩ := List.getElem?_eq_some_iff.mp bracket
  have cut : kept = kept.take place ++ '[' :: kept.drop (place + 1) := by
    rw [← bracket, ← List.drop_eq_getElem_cons inside, List.take_append_drop]
  have completes : Mark.Completes (kept.take place) '[' :=
    Or.inr ⟨rfl, by rw [Text.runAtEnd_take, paired]⟩
  exact absurd (seams _ _ _ (whole.trans cut) completes).1 (by decide)

/-- Around a hidden bracket two hashes meet: what is kept is a line mark, and nothing of it is
kept when it is stripped again. -/
theorem strip_kept_around_bracket :
    Block.visible.strip "#[note]#".toList = ("##".toList, .visible) ∧
      Mark.ofLine "##".toList = [(0, .lineMark)] ∧
      Block.visible.strip "##".toList = ([], .visible) := by
  decide

end Block

end Manuscript
