/-
This file proves that the pieces of a line are what the patterns ask for. A pattern says what a
piece of one kind is written with, and the patterns overlap: a hash may be the beginning of a
mark or stand for itself, and so may a backslash. At every place the longest piece that any
pattern matches is taken. There always is one, so a line is read to its end without an error, and
the pieces lie end to end in it, each between two byte offsets that are boundaries of characters.
Longest pieces that lie end to end leave no choice, so nothing but the pieces of the line has
these properties.
-/

import Mathlib.Data.List.Chain
import Manuscript.Proofs.Aside.Parting
import Manuscript.Proofs.Text.Bytes

namespace Manuscript

/-! ### The patterns -/

/-- The characters that a piece of any kind other than plain text begins with. -/
def TokenKind.marks : List Char := ['#', '[', ']', '\\']

/-- What a piece of each kind is written with. -/
inductive TokenKind.Matches : TokenKind → Text → Prop
  | blockMark : Matches .blockMark ['#', '#', '#']
  | lineMark : Matches .lineMark ['#', '#']
  | openBracket : Matches .openBracket ['[']
  | closeBracket : Matches .closeBracket [']']
  | escapedBackslash : Matches .escapedBackslash ['\\', '\\']
  | escapedBlockMark : Matches .escapedMark ['\\', '#', '#', '#']
  | escapedLineMark : Matches .escapedMark ['\\', '#', '#']
  | escapedOpenBracket : Matches .escapedMark ['\\', '[']
  | escapedCloseBracket : Matches .escapedMark ['\\', ']']
  | hash : Matches .hash ['#']
  | backslash : Matches .backslash ['\\']
  /-- One or more characters that no other pattern has. -/
  | plain {lexeme : Text} (solid : lexeme ≠ [])
      (letters : ∀ letter ∈ lexeme, letter ∉ marks) : Matches .plain lexeme

namespace TokenKind.Matches

variable {kind : TokenKind} {lexeme : Text}

theorem ne_nil (fits : kind.Matches lexeme) : lexeme ≠ [] := by
  cases fits with
  | plain solid _ => exact solid
  | _ => exact List.cons_ne_nil _ _

/-- Whether a piece is plain text shows in its first character. -/
theorem plain_iff (fits : kind.Matches lexeme) {first : Char} (here : lexeme.head? = some first) :
    kind = .plain ↔ first ∉ marks := by
  cases fits with
  | plain _ letters => exact iff_of_true rfl (letters first (List.mem_of_head? here))
  | _ =>
    cases here
    exact iff_of_false nofun (by decide)

/-- Behind the first letter of a piece there is plain text, if anything. -/
theorem behind_letter {letter : Char} (fits : kind.Matches (letter :: lexeme))
    (plain : letter ∉ marks) (more : lexeme ≠ []) : Matches .plain lexeme := by
  obtain rfl := (fits.plain_iff rfl).mpr plain
  cases fits with
  | plain _ letters => exact .plain more (List.forall_mem_cons.mp letters).2

theorem append_plain {front back : Text} (fits : Matches .plain front)
    (fitsToo : Matches .plain back) : Matches .plain (front ++ back) := by
  cases fits with
  | plain solid letters =>
    cases fitsToo with
    | plain _ others =>
      exact .plain (List.append_ne_nil_of_left_ne_nil solid _)
        (List.forall_mem_append.mpr ⟨letters, others⟩)

/-- What a pattern matches is one piece, if it stands alone. -/
theorem ofLine_eq (fits : kind.Matches lexeme) : Token.ofLine lexeme = [⟨kind, lexeme⟩] := by
  cases fits with
  | plain solid letters =>
    induction lexeme with
    | nil => exact absurd rfl solid
    | cons letter lexeme inductionHypothesis =>
      obtain ⟨first, others⟩ := List.forall_mem_cons.mp letters
      simp only [marks, List.mem_cons, List.not_mem_nil, or_false, not_or] at first
      rw [Token.ofLine_plain first.1 first.2.1 first.2.2.1 first.2.2.2]
      cases lexeme with
      | nil => rfl
      | cons next lexeme =>
        rw [inductionHypothesis (List.cons_ne_nil _ _) others]
        rfl
  | _ => rfl

/-- A piece at the beginning of a text is not plain text if the text begins with a mark. -/
theorem ne_plain (fits : kind.Matches lexeme) {first : Char} {rest : Text}
    (within : lexeme <+: first :: rest) (mark : first ∈ marks) : kind ≠ .plain := by
  obtain ⟨character, lexeme, rfl⟩ := List.exists_cons_of_ne_nil fits.ne_nil
  obtain ⟨rfl, _⟩ := List.cons_prefix_cons.mp within
  rw [ne_eq, fits.plain_iff rfl, not_not]
  exact mark

/-- No two patterns of different kinds match the same. -/
theorem kind_eq (fits : kind.Matches lexeme) {other : TokenKind} (fitsToo : other.Matches lexeme) :
    kind = other := by
  have same := fits.ofLine_eq.symm.trans fitsToo.ofLine_eq
  exact congrArg Token.kind (List.cons.inj same).1

end TokenKind.Matches

namespace Token

/-! ### The longest piece -/

/-- A piece in front of the rest of a text that a pattern matches, where no pattern matches more
of the text. -/
structure IsLongest (token : Token) (rest : Text) : Prop where
  fits : token.kind.Matches token.lexeme
  longest : ∀ (kind : TokenKind) (lexeme : Text), lexeme <+: token.lexeme ++ rest →
    kind.Matches lexeme → lexeme.length ≤ token.lexeme.length

/-- A letter in front of a text is a piece together with the plain text that follows it. -/
theorem isLongest_cons {letter : Char} (plain : letter ∉ TokenKind.marks) {lexeme rest : Text}
    (letters : ∀ other ∈ lexeme, other ∉ TokenKind.marks)
    (longest : ∀ more, more <+: lexeme ++ rest → TokenKind.Matches .plain more →
      more.length ≤ lexeme.length) : IsLongest ⟨.plain, letter :: lexeme⟩ rest where
  fits := .plain (List.cons_ne_nil _ _) (List.forall_mem_cons.mpr ⟨plain, letters⟩)
  longest kind longer within fits := by
    obtain ⟨first, more, rfl⟩ := List.exists_cons_of_ne_nil fits.ne_nil
    obtain ⟨rfl, behind⟩ := List.cons_prefix_cons.mp within
    refine Nat.succ_le_succ ?_
    by_cases empty : more = []
    · rw [empty]
      exact Nat.zero_le _
    · exact longest more behind (fits.behind_letter plain empty)

/-- In front of a mark a letter is a piece by itself, and so it is at the end of a text. -/
theorem isLongest_single {letter : Char} (plain : letter ∉ TokenKind.marks) {rest : Text}
    (marked : ∀ first, rest.head? = some first → first ∈ TokenKind.marks) :
    IsLongest ⟨.plain, [letter]⟩ rest := by
  refine isLongest_cons plain (List.forall_mem_nil _) fun more within fits => ?_
  cases rest with
  | nil => exact within.length_le
  | cons first rest => exact absurd rfl (fits.ne_plain within (marked first rfl))

/-- Every text but the empty one begins with its first piece, and that is the longest one. -/
theorem exists_isLongest {text : Text} (solid : text ≠ []) : ∃ token rest,
    text = token.lexeme ++ rest ∧ ofLine text = token :: ofLine rest ∧ IsLongest token rest := by
  fun_induction ofLine text with
  | case1 => exact absurd rfl solid
  -- A letter goes in front of the next piece if that is plain text, and is one by itself if not.
  | case13 letter rest _ _ hash opens closes _ _ _ _ _ slash inductionHypothesis =>
    have plain : letter ∉ TokenKind.marks := by
      simp only [TokenKind.marks, List.mem_cons, List.not_mem_nil, or_false, not_or]
      exact ⟨hash, opens, closes, slash⟩
    by_cases empty : rest = []
    · subst empty
      exact ⟨⟨.plain, [letter]⟩, [], rfl, rfl, isLongest_single plain (by simp)⟩
    obtain ⟨⟨kind, lexeme⟩, behind, rfl, pieces, isLongest⟩ := inductionHypothesis empty
    by_cases goesOn : kind = .plain
    · subst goesOn
      refine ⟨⟨.plain, letter :: lexeme⟩, behind, rfl, by rw [pieces]; rfl, ?_⟩
      cases isLongest.fits with
      | plain _ letters => exact isLongest_cons plain letters fun more => isLongest.longest _ more
    · have alone : consPlain letter (ofLine (lexeme ++ behind)) =
          ⟨.plain, [letter]⟩ :: ofLine (lexeme ++ behind) := by
        rw [pieces, consPlain]
        rintro _ _ ⟨rfl, _⟩
        exact goesOn rfl
      refine ⟨⟨.plain, [letter]⟩, lexeme ++ behind, rfl, alone,
        isLongest_single plain fun first here => ?_⟩
      rw [List.head?_append_of_ne_nil lexeme isLongest.fits.ne_nil] at here
      exact not_not.mp (mt (isLongest.fits.plain_iff here).mpr goesOn)
  -- A piece that begins with a mark would be longer only if something else came behind it.
  | case2 rest | case3 rest | case4 rest | case5 rest | case6 rest | case7 rest | case8 rest
  | case9 rest | case10 rest | case11 rest | case12 rest =>
    refine ⟨_, rest, rfl, rfl, by constructor, fun kind lexeme within fits => ?_⟩
    have marked := fits.ne_plain within (by decide)
    obtain ⟨tail, whole⟩ := within
    rw [eq_comm] at whole
    cases fits <;> first | contradiction | decide | simp_all

/-- No text begins with two longest pieces. -/
theorem IsLongest.unique {token other : Token} {rest behind : Text}
    (isLongest : IsLongest token rest) (isLongestToo : IsLongest other behind)
    (same : token.lexeme ++ rest = other.lexeme ++ behind) : token = other ∧ rest = behind := by
  have noLonger := isLongest.longest _ _ ⟨behind, same.symm⟩ isLongestToo.fits
  have noShorter := isLongestToo.longest _ _ ⟨rest, same⟩ isLongest.fits
  obtain ⟨lexemes, rests⟩ := List.append_inj same (Nat.le_antisymm noShorter noLonger)
  obtain ⟨kind, lexeme⟩ := token
  obtain ⟨otherKind, otherLexeme⟩ := other
  obtain rfl : lexeme = otherLexeme := lexemes
  obtain rfl : kind = otherKind := isLongest.fits.kind_eq isLongestToo.fits
  exact ⟨rfl, rests⟩

/-- A line that begins with a longest piece has that piece as its first one. -/
theorem IsLongest.ofLine_eq {token : Token} {rest : Text} (isLongest : IsLongest token rest) :
    ofLine (token.lexeme ++ rest) = token :: ofLine rest := by
  have solid := List.append_ne_nil_of_left_ne_nil isLongest.fits.ne_nil rest
  obtain ⟨first, behind, whole, pieces, firstLongest⟩ := exists_isLongest solid
  obtain ⟨rfl, rfl⟩ := isLongest.unique firstLongest whole
  exact pieces

/-- Induction along the longest pieces of a line. -/
@[elab_as_elim]
theorem pieces_induction {motive : Text → Prop} (line : Text) (nil : motive [])
    (piece : ∀ token rest, IsLongest token rest → motive rest → motive (token.lexeme ++ rest)) :
    motive line := by
  by_cases empty : line = []
  · exact empty ▸ nil
  · obtain ⟨token, rest, whole, _, isLongest⟩ := exists_isLongest empty
    have shorter : rest.length < line.length := by
      have some_ := List.length_pos_of_ne_nil isLongest.fits.ne_nil
      rw [whole, List.length_append]
      omega
    rw [whole]
    exact piece token rest isLongest (pieces_induction rest nil piece)
termination_by line.length

/-! ### Reading by the patterns alone -/

/-- The ways to read a line that know the patterns but not the line: at every place the longest
piece that a pattern matches, or an error and a character that is passed over where no pattern
matches anything. -/
inductive Lexes : Text → List (Option Token) → Prop
  | done : Lexes [] []
  | piece {token : Token} {rest : Text} {found : List (Option Token)}
      (isLongest : IsLongest token rest) (behind : Lexes rest found) :
      Lexes (token.lexeme ++ rest) (some token :: found)
  | error {character : Char} {rest : Text} {found : List (Option Token)}
      (nothing : ∀ (kind : TokenKind) (lexeme : Text), lexeme <+: character :: rest →
        ¬kind.Matches lexeme)
      (behind : Lexes rest found) : Lexes (character :: rest) (none :: found)

/-- Reading a line by the patterns comes to an end without an error, and finds its pieces. -/
theorem lexes_iff (line : Text) (found : List (Option Token)) :
    Lexes line found ↔ found = (ofLine line).map some := by
  constructor
  · intro lexes
    induction lexes with
    | done => rfl
    | piece isLongest behind inductionHypothesis =>
      rw [isLongest.ofLine_eq, inductionHypothesis, List.map_cons]
    | error nothing behind inductionHypothesis =>
      obtain ⟨token, rest, whole, _, isLongest⟩ := exists_isLongest (List.cons_ne_nil _ _)
      exact absurd isLongest.fits (nothing _ _ ⟨rest, whole.symm⟩)
  · rintro rfl
    induction line using pieces_induction with
    | nil => exact .done
    | piece token rest isLongest inductionHypothesis =>
      rw [isLongest.ofLine_eq]
      exact .piece isLongest inductionHypothesis

/-- Plain text is never divided. -/
theorem isChain_ofLine (line : Text) :
    (ofLine line).IsChain fun piece next => ¬(piece.kind = .plain ∧ next.kind = .plain) := by
  induction line using pieces_induction with
  | nil => exact .nil
  | piece token rest isLongest inductionHypothesis =>
    rw [isLongest.ofLine_eq, List.isChain_cons]
    refine ⟨?_, inductionHypothesis⟩
    rintro next follows ⟨plain, plainToo⟩
    have some_ : rest ≠ [] := by
      rintro rfl
      cases follows
    obtain ⟨second, behind, rfl, pieces, nextLongest⟩ := exists_isLongest some_
    rw [pieces] at follows
    obtain rfl : second = next := Option.some.inj follows
    have joined : TokenKind.Matches .plain (token.lexeme ++ second.lexeme) :=
      .append_plain (plain ▸ isLongest.fits) (plainToo ▸ nextLongest.fits)
    have noLonger := isLongest.longest _ _ (List.append_assoc _ _ _ ▸ List.prefix_append _ _) joined
    have more := List.length_pos_of_ne_nil nextLongest.fits.ne_nil
    rw [List.length_append] at noLonger
    omega

/-! ### Pieces at their places -/

/-- A piece stands between two byte offsets of a line and is the longest one that begins there. No
pattern matches what stands from the same offset up to a later one. -/
structure IsLongestAt (line : Text) (token : Token) (start stop : Nat) : Prop where
  solid : start < stop
  slice : Text.IsSlice line start stop token.lexeme
  fits : token.kind.Matches token.lexeme
  longest : ∀ (kind : TokenKind) (further : Nat) (lexeme : Text),
    Text.IsSlice line start further lexeme → kind.Matches lexeme → further ≤ stop

/-- Pieces with their byte offsets tile a line where each of them is the longest one at its place,
and where the offsets that they begin at, with the end of the line for one more, are the beginning
of the line and the offsets that they end at. So the first one begins with the line, each of the
others where the one before it ends, and the last one ends with the line. -/
structure Tiles (line : Text) (entries : List (Token × Nat × Nat)) : Prop where
  longest : ∀ token start stop, (token, start, stop) ∈ entries → IsLongestAt line token start stop
  joined : entries.map (fun entry => entry.2.1) ++ [(String.ofList line).utf8ByteSize] =
    0 :: entries.map fun entry => entry.2.2

theorem isLongestAt_iff (line : Text) (token : Token) (start stop : Nat) :
    IsLongestAt line token start stop ↔ ∃ front rest, line = front ++ (token.lexeme ++ rest) ∧
      front.byteLength = start ∧ start + token.lexeme.byteLength = stop ∧
      IsLongest token rest := by
  constructor
  · rintro ⟨_, slice, fits, longest⟩
    obtain ⟨front, rest, rfl, rfl, rfl⟩ := (Text.isSlice_iff _ _ _ _).mp slice
    refine ⟨front, rest, rfl, rfl, rfl, fits, fun kind lexeme within fitsToo => ?_⟩
    obtain ⟨tail, whole⟩ := within
    have further := longest kind _ lexeme
      ((Text.isSlice_iff _ _ _ _).mpr ⟨front, tail, by rw [whole], rfl, rfl⟩) fitsToo
    obtain ⟨middle, same, _⟩ :=
      Text.exists_eq_append_of_byteLength_le whole (Nat.le_of_add_le_add_left further)
    rw [same, List.length_append]
    exact Nat.le_add_right _ _
  · rintro ⟨front, rest, rfl, rfl, rfl, fits, longest⟩
    refine ⟨?_, (Text.isSlice_iff _ _ _ _).mpr ⟨front, rest, rfl, rfl, rfl⟩, fits, ?_⟩
    · have some_ := mt (Text.byteLength_eq_zero_iff token.lexeme).mp fits.ne_nil
      omega
    · intro kind further lexeme slice fitsToo
      obtain ⟨other, tail, whole, sameStart, rfl⟩ := (Text.isSlice_iff _ _ _ _).mp slice
      obtain ⟨_, same⟩ := Text.append_inj_of_byteLength_eq whole sameStart.symm
      have within : lexeme <+: token.lexeme ++ rest := ⟨tail, same.symm⟩
      obtain ⟨middle, parted⟩ := List.prefix_of_prefix_length_le within (List.prefix_append _ _)
        (longest kind lexeme within fitsToo)
      rw [← parted, Text.byteLength_append]
      omega

/-- Pieces in a line behind the front of it, where each is the longest at its place and begins
where the one before it ends, are the pieces of what is behind that front. -/
theorem eq_placed_of_joined {line front rest : Text} (whole : line = front ++ rest)
    (entries : List (Token × Nat × Nat))
    (longest : ∀ token start stop, (token, start, stop) ∈ entries →
      IsLongestAt line token start stop)
    (joined : entries.map (fun entry => entry.2.1) ++ [line.byteLength] =
      front.byteLength :: entries.map fun entry => entry.2.2) :
    entries = placed front.byteLength (ofLine rest) := by
  induction entries generalizing front rest with
  | nil =>
    obtain ⟨length, _⟩ := List.cons.inj joined
    rw [whole, Text.byteLength_append] at length
    obtain rfl : rest = [] := (Text.byteLength_eq_zero_iff rest).mp (by omega)
    rfl
  | cons entry entries inductionHypothesis =>
    obtain ⟨token, start, stop⟩ := entry
    obtain ⟨begins, behind⟩ := List.cons.inj joined
    obtain ⟨other, tail, parted, starts, ends, isLongest⟩ :=
      (isLongestAt_iff _ _ _ _).mp (longest token start stop List.mem_cons_self)
    obtain ⟨rfl, rfl⟩ := Text.append_inj_of_byteLength_eq (whole.symm.trans parted)
      (begins.symm.trans starts.symm)
    have ended : (front ++ token.lexeme).byteLength = stop := by
      rw [Text.byteLength_append, ← ends, ← starts]
    have others := inductionHypothesis (parted.trans (List.append_assoc _ _ _).symm)
      (fun _ _ _ member => longest _ _ _ (List.mem_cons_of_mem _ member))
      (by rw [ended]; exact behind)
    rw [isLongest.ofLine_eq, placed, others, ended, starts, ends]

theorem isLongestAt_of_mem_placed (front rest : Text) {token : Token} {start stop : Nat}
    (member : (token, start, stop) ∈ placed front.byteLength (ofLine rest)) :
    IsLongestAt (front ++ rest) token start stop := by
  induction rest using pieces_induction generalizing front with
  | nil => exact absurd member List.not_mem_nil
  | piece first rest isLongest inductionHypothesis =>
    rw [isLongest.ofLine_eq, placed] at member
    rcases List.mem_cons.mp member with here | behind
    · obtain ⟨rfl, rfl, rfl⟩ := here
      exact (isLongestAt_iff _ _ _ _).mpr ⟨front, rest, rfl, rfl, rfl, isLongest⟩
    · rw [← Text.byteLength_append] at behind
      rw [← List.append_assoc]
      exact inductionHypothesis (front ++ first.lexeme) behind

theorem joined_placed (start : Nat) (tokens : List Token) :
    (placed start tokens).map (fun entry => entry.2.1) ++
        [start + Text.byteLength (tokens.flatMap lexeme)] =
      start :: (placed start tokens).map fun entry => entry.2.2 := by
  induction tokens generalizing start with
  | nil => rfl
  | cons token tokens inductionHypothesis =>
    have behind := inductionHypothesis (start + token.lexeme.byteLength)
    rw [placed, List.map_cons, List.map_cons, List.cons_append, List.flatMap_cons,
      Text.byteLength_append, ← Nat.add_assoc, behind]

/-- The pieces of a line tile it, and no others do. -/
theorem tiles_iff (line : Text) (entries : List (Token × Nat × Nat)) :
    Tiles line entries ↔ entries = placed 0 (ofLine line) := by
  have length := Text.utf8ByteSize_ofList line
  constructor
  · rintro ⟨longest, joined⟩
    rw [length] at joined
    exact @eq_placed_of_joined line [] line rfl entries longest joined
  · rintro rfl
    refine ⟨fun token start stop => isLongestAt_of_mem_placed [] line, ?_⟩
    have joined := joined_placed 0 (ofLine line)
    rw [lexemes_ofLine, Nat.zero_add] at joined
    rw [length, joined]

/-- Dividing a line into pieces loses nothing of it. Reading it by the patterns alone, with the
longest piece at every place, never meets an error and finds these pieces. With their byte offsets
they tile the line, and nothing else does. Put together again they are the line, and plain text is
never divided between two of them. -/
theorem longest_pieces_tile (line : Text) :
    (∀ found, Lexes line found ↔ found = (ofLine line).map some) ∧
      (∀ entries, Tiles line entries ↔ entries = placed 0 (ofLine line)) ∧
      (ofLine line).flatMap lexeme = line ∧
      (ofLine line).IsChain fun piece next => ¬(piece.kind = .plain ∧ next.kind = .plain) :=
  ⟨lexes_iff line, tiles_iff line, lexemes_ofLine line, isChain_ofLine line⟩

/-- Behind a letter of two bytes, a backslash and a single hash make no mark. -/
example : placed 0 (ofLine "é\\#a".toList) =
    [(⟨.plain, ['é']⟩, 0, 2), (⟨.backslash, ['\\']⟩, 2, 3), (⟨.hash, ['#']⟩, 3, 4),
      (⟨.plain, ['a']⟩, 4, 5)] := by
  decide

end Token

end Manuscript
