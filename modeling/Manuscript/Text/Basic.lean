/-
This file fixes what a piece of text is and what counts as white space in it.
A text is a list of characters, so that every rule about a line is an ordinary
function on lists and every proof about it an induction on that list. White
space is the Unicode property of that name: blankness, trimming and the words of
a line all read this one predicate, so they can never disagree. The underscore
pairs that mark bold words are read from left to right without overlap, so three
underscores in a row hold one pair and leave one underscore behind.
-/

namespace Manuscript

/-- A piece of text: a line, a name, or a whole document. -/
abbrev Text := List Char

/-- The characters with the Unicode property `White_Space`. -/
def isSpace (character : Char) : Bool :=
  let code := character.toNat
  (9 ≤ code && code ≤ 13) || code == 0x20 || code == 0x85 || code == 0xA0 || code == 0x1680 ||
    (0x2000 ≤ code && code ≤ 0x200A) || code == 0x2028 || code == 0x2029 || code == 0x202F ||
    code == 0x205F || code == 0x3000

theorem isSpace_space : isSpace ' ' = true := rfl

namespace Text

/-- A blank text has nothing but white space in it. -/
def isBlank (text : Text) : Bool :=
  text.all isSpace

/-- Text without the white space in front of it. -/
def trimStart (text : Text) : Text :=
  text.dropWhile isSpace

/-- Text without the white space after it. -/
def trimEnd (text : Text) : Text :=
  (text.reverse.dropWhile isSpace).reverse

/-- Text without the white space around it. -/
def trim (text : Text) : Text :=
  trimEnd (trimStart text)

/-- Each run of white space becomes one space. The flag says that the run being read has
already been answered by its space. -/
def squeeze : (inRun : Bool) → Text → Text
  | _, [] => []
  | inRun, character :: rest =>
    if isSpace character then
      if inRun then squeeze true rest else ' ' :: squeeze true rest
    else character :: squeeze false rest

/-- The words of a line with single spaces between them. -/
def tidy (line : Text) : Text :=
  squeeze false (trim line)

/-- The number of underscore pairs, from left to right without overlap. -/
def countPairs : Text → Nat
  | '_' :: '_' :: rest => countPairs rest + 1
  | _ :: rest => countPairs rest
  | [] => 0

/-- Text without its underscore pairs, taken from left to right without overlap. -/
def dropPairs : Text → Text
  | '_' :: '_' :: rest => dropPairs rest
  | character :: rest => character :: dropPairs rest
  | [] => []

/-- The number of bytes that a text takes in UTF-8. -/
def byteLength : Text → Nat
  | [] => 0
  | character :: rest => character.utf8Size + byteLength rest

/-- The order in which names are listed: character by character, by code point. This is
also the order of the encoded bytes. -/
def before : Text → Text → Bool
  | [], _ => true
  | _ :: _, [] => false
  | first :: rest, other :: others =>
    first.toNat < other.toNat || (first == other && before rest others)

end Text

end Manuscript
