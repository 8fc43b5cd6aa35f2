/-
This file says which names a watchlist finds in a line. Name and line are lower-cased each on
its own, so a name that stands in the line letter by letter is found wherever its lower case is
the same there as alone. Only a capital sigma can make a difference, where it ends a word in
the line and not in the name or the other way round.
-/

import Manuscript.Proofs.Text.Sigma
import Manuscript.Proofs.Text.Space
import Manuscript.Watchlist

namespace Manuscript

theorem Text.occursIn_iff (part text : Text) : part.occursIn text = true ↔ part <:+: text := by
  induction text with
  | nil => rw [occursIn, List.isEmpty_iff, List.infix_nil]
  | cons character rest inductionHypothesis =>
    rw [occursIn, Bool.or_eq_true, inductionHypothesis, List.isPrefixOf_iff_prefix,
      List.infix_cons_iff]

/-- A name that stands between two texts and keeps its sigmas there is in their lower case too. -/
theorem Text.KeepsSigmas.lower_infix {front name back : Text}
    (keeps : KeepsSigmas front name back) : lower name <:+: lower (front ++ name ++ back) := by
  rw [lower_append_append, (lowerBetween_eq_lower_iff front name back).mpr keeps]
  exact List.infix_append _ _ _

namespace Watchlist

theorem found_eq (watchlist : Watchlist) (line : Text) :
    watchlist.found line =
      (watchlist.names.filter fun name => name.folded.occursIn (Text.lower line)).map
        (·.spelling) := by
  unfold found
  split
  · rename_i none
    rw [none]
    rfl
  · rfl

/-- Whether a line mentions a name that can be looked for, in capital or small letters. -/
def mentions (line name : Text) : Bool :=
  !name.isBlank && (Text.lower name).occursIn (Text.lower line)

theorem mentions_iff (line name : Text) :
    mentions line name = true ↔ name.isBlank = false ∧ Text.lower name <:+: Text.lower line := by
  rw [mentions, Bool.and_eq_true, Bool.not_eq_true', Text.occursIn_iff]

/-- The names found stand in the project's order, each as many times as there. -/
theorem found_ofNames (names : List Text) (line : Text) :
    (ofNames names).found line = names.filter (mentions line) := by
  have blank (name : Text) : (Text.trim name).isEmpty = name.isBlank := by
    rw [Bool.eq_iff_iff, List.isEmpty_iff, Text.trim_eq_nil_iff]
  rw [found_eq, ofNames, List.filter_map, List.map_map, List.filter_filter]
  simp only [Function.comp_def, blank, Bool.and_comm, List.map_id']
  rfl

/-- What is found are the names that are not blank and that the line holds in lower case, in the
project's order and as often as there. A name that stands in the line letter by letter is among
them if each of its sigmas ends a word there as it does in the name alone. That is so for a name
without a capital sigma, wherever it stands and whatever is around it, and for a name that
begins and ends between words. Only where it is so does the lower case of the name stand at its
place in the lower case of the line. -/
theorem names_found_where_sigmas_keep (names : List Text) (line : Text) :
    (ofNames names).found line = names.filter (mentions line) ∧
    (∀ name, mentions line name = true ↔
      name.isBlank = false ∧ Text.lower name <:+: Text.lower line) ∧
    ∀ name ∈ names, name.isBlank = false → ∀ front back, line = front ++ name ++ back →
      (Text.KeepsSigmas front name back → name ∈ (ofNames names).found line) ∧
      (Text.sigma ∉ name → name ∈ (ofNames names).found line) ∧
      (Text.endsCased front = false → Text.startsCased back = false →
        name ∈ (ofNames names).found line) ∧
      (Text.KeepsSigmas front name back ↔
        Text.lower line = Text.lowerBetween [] front (name ++ back) ++ Text.lower name ++
          Text.lowerBetween (front ++ name) back []) := by
  refine ⟨found_ofNames names line, mentions_iff line, ?_⟩
  rintro name member solid front back rfl
  have found (keeps : Text.KeepsSigmas front name back) :
      name ∈ (ofNames names).found (front ++ name ++ back) := by
    rw [found_ofNames, List.mem_filter, mentions_iff]
    exact ⟨member, solid, keeps.lower_infix⟩
  refine ⟨found, fun none => found (Text.keepsSigmas_of_not_mem front none back),
    fun begins ends => found (Text.keepsSigmas_of_whole begins ends name), ?_⟩
  rw [Text.lower_append_append, List.append_cancel_right_eq, List.append_cancel_left_eq,
    Text.lowerBetween_eq_lower_iff]

/-- A name that stands at the end of a longer word and ends in a sigma there is found, as often as
the project has it. -/
theorem names_found_where_sigmas_keep_at_word_end :
    let name : Text := "ΑΣ".toList
    let line : Text := "ΒΑΣ.".toList
    name ∈ [name, name] ∧ name.isBlank = false ∧
      line = "Β".toList ++ name ++ ".".toList ∧
      Text.KeepsSigmas "Β".toList name ".".toList ∧
      name ∈ (ofNames [name, name]).found line ∧
      (ofNames [name, name]).found line = [name, name] := by
  intro name line
  have member : name ∈ [name, name] := List.mem_cons_self
  have solid : name.isBlank = false := by decide
  have place : line = "Β".toList ++ name ++ ".".toList := by decide
  have keeps : Text.KeepsSigmas "Β".toList name ".".toList :=
    (Text.lowerBetween_eq_lower_iff _ _ _).mp (by decide +kernel)
  obtain ⟨all, _, each⟩ := names_found_where_sigmas_keep [name, name] line
  refine ⟨member, solid, place, keeps, (each name member solid _ _ place).1 keeps, ?_⟩
  rw [all]
  decide +kernel

/-- In front of a letter a sigma does not end a word any more, and a name that ends in one is not
found there. Neither is a name that begins with a sigma found at the end of a word. -/
theorem names_missed_within_words :
    (¬ ∀ (names : List Text) (line name : Text), name ∈ names → name.isBlank = false →
      name <:+: line → name ∈ (ofNames names).found line) ∧
    (ofNames ["ΑΣ".toList]).found "ΑΣΑ".toList = [] ∧
    (ofNames ["Σ".toList]).found "ΑΣ".toList = [] := by
  have inside : (ofNames ["ΑΣ".toList]).found "ΑΣΑ".toList = [] := by decide +kernel
  refine ⟨fun finds => ?_, inside, by decide +kernel⟩
  have found := finds ["ΑΣ".toList] "ΑΣΑ".toList "ΑΣ".toList List.mem_cons_self (by decide)
    (by decide)
  rw [inside] at found
  exact List.not_mem_nil found

end Watchlist

end Manuscript
