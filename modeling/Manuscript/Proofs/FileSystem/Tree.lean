/-
This file says when the entries of a tree make a tree: every place has one entry, places are
named by names, and around every entry there is a folder. What lies below a folder is then
reached by walking down along the names of its place, and no two ways below a folder are the
same.
-/

import Mathlib.Data.List.Induction
import Manuscript.Proofs.FileSystem.Frame

namespace Manuscript

instance (name : Text) : Decidable (IsName name) :=
  decidable_of_iff
    (name ≠ [] ∧ '/' ∉ name ∧ name ≠ ['.'] ∧ name ≠ ['.', '.'] ∧
      name.byteLength ≤ FileSystem.longestName)
    ⟨fun ⟨written, noSlash, notHere, notAround, short⟩ =>
      ⟨written, noSlash, notHere, notAround, short⟩,
    fun isName =>
      ⟨isName.written, isName.noSlash, isName.notHere, isName.notAround, isName.short⟩⟩

namespace FileSystem

/-- The entries are a tree below the root. -/
structure WellFormed (files : FileSystem) : Prop where
  single : (files.entries.map Prod.fst).Nodup
  named : ∀ item ∈ files.entries, item.1 ≠ [] ∧ ∀ name ∈ item.1, IsName name
  around : ∀ item ∈ files.entries, files.at? item.1.dropLast = some .folder

/-- Something can lie at the place: it is named, and there is a folder around it. The root is
around itself. -/
structure HasRoom (files : FileSystem) (location : Location) : Prop where
  named : ∀ name ∈ location, IsName name
  around : files.at? location.dropLast = some .folder

instance (files : FileSystem) : Decidable files.WellFormed :=
  decidable_of_iff
    ((files.entries.map Prod.fst).Nodup ∧
      (∀ item ∈ files.entries, item.1 ≠ [] ∧ ∀ name ∈ item.1, IsName name) ∧
      ∀ item ∈ files.entries, files.at? item.1.dropLast = some .folder)
    ⟨fun ⟨single, named, around⟩ => ⟨single, named, around⟩,
    fun wellFormed => ⟨wellFormed.single, wellFormed.named, wellFormed.around⟩⟩

theorem mem_entries_of_at? {files : FileSystem} {location : Location} {entry : Entry}
    (inside : location ≠ []) (here : files.at? location = some entry) :
    (location, entry) ∈ files.entries := by
  rw [at?, if_neg inside] at here
  obtain ⟨front, behind, entries, _⟩ := List.lookup_eq_some_iff.mp here
  rw [entries]
  exact List.mem_append_right front List.mem_cons_self

theorem at?_ne_none_of_mem {files : FileSystem} {location : Location} {entry : Entry}
    (member : (location, entry) ∈ files.entries) : files.at? location ≠ none := by
  rw [at?]
  split
  · exact Option.some_ne_none _
  · intro none_
    have other := List.lookup_eq_none_iff.mp none_ _ member
    rw [bne_self_eq_false] at other
    cases other

/-! ### What lies below a place -/

/-- The way down from one place to another. -/
def wayDown? (location other : Location) : Option Location :=
  if location.isPrefixOf other ∧ other ≠ location then some (other.drop location.length) else none

theorem wayDown?_eq_some {location other way : Location} :
    wayDown? location other = some way ↔ way ≠ [] ∧ other = location ++ way := by
  rw [wayDown?, Option.ite_none_right_eq_some, Option.some.injEq, List.isPrefixOf_iff_prefix]
  constructor
  · rintro ⟨⟨⟨rest, rfl⟩, different⟩, rfl⟩
    rw [List.drop_left]
    refine ⟨?_, rfl⟩
    rintro rfl
    exact different (List.append_nil location)
  · rintro ⟨some_, rfl⟩
    refine ⟨⟨List.prefix_append location way, ?_⟩, List.drop_left⟩
    exact fun same => some_ (List.append_cancel_left (same.trans (List.append_nil location).symm))

theorem below_eq (files : FileSystem) (location : Location) :
    files.below location = (files.entries.map Prod.fst).filterMap (wayDown? location) := by
  rw [List.filterMap_map]
  rfl

theorem mem_below {files : FileSystem} {location way : Location} :
    way ∈ files.below location ↔ way ≠ [] ∧ ∃ entry, (location ++ way, entry) ∈ files.entries := by
  rw [below_eq, List.mem_filterMap]
  simp only [wayDown?_eq_some, List.mem_map]
  constructor
  · rintro ⟨other, ⟨⟨_, entry⟩, member, rfl⟩, some_, rfl⟩
    exact ⟨some_, entry, member⟩
  · rintro ⟨some_, entry, member⟩
    exact ⟨location ++ way, ⟨_, member, rfl⟩, some_, rfl⟩

theorem at?_ne_none_of_mem_below {files : FileSystem} {location way : Location}
    (member : way ∈ files.below location) : files.at? (location ++ way) ≠ none := by
  obtain ⟨_, entry, inside⟩ := mem_below.mp member
  exact at?_ne_none_of_mem inside

namespace WellFormed

variable {files : FileSystem} (wellFormed : files.WellFormed)

include wellFormed

theorem nodup_below (location : Location) : (files.below location).Nodup := by
  rw [below_eq, List.Nodup, List.pairwise_filterMap]
  refine wellFormed.single.imp fun {first second} apart way one other two => ?_
  rintro rfl
  exact apart ((wayDown?_eq_some.mp one).2.trans (wayDown?_eq_some.mp two).2.symm)

theorem isName_of_mem_below {location way : Location} (member : way ∈ files.below location) :
    ∀ name ∈ way, IsName name := by
  obtain ⟨_, entry, inside⟩ := mem_below.mp member
  exact fun name behind =>
    (wellFormed.named _ inside).2 name (List.mem_append_right location behind)

/-- All that is around an entry is a folder. -/
theorem folder_of_prefix {location front : Location} {entry : Entry}
    (member : (location, entry) ∈ files.entries) (begins : front <+: location)
    (shorter : front ≠ location) : files.at? front = some .folder := by
  induction location using List.reverseRecOn generalizing entry with
  | nil => exact absurd (List.prefix_nil.mp begins) shorter
  | append_singleton init name inductionHypothesis =>
    have around := wellFormed.around _ member
    rw [List.dropLast_concat] at around
    have inner := (List.prefix_concat_iff.mp begins).resolve_left shorter
    by_cases whole : front = init
    · rw [whole, around]
    · have inside : init ≠ [] := by
        rintro rfl
        exact whole (List.prefix_nil.mp inner)
      exact inductionHypothesis (mem_entries_of_at? inside around) inner whole

/-- What lies below a place is reached along its names. -/
theorem walk_below {location way : Location} (member : way ∈ files.below location) :
    files.walk location way = .ok (location ++ way) := by
  obtain ⟨_, entry, inside⟩ := mem_below.mp member
  refine walk_names (wellFormed.isName_of_mem_below member) fun front begins shorter => ?_
  exact wellFormed.folder_of_prefix inside ((List.prefix_append_right_inj location).mpr begins)
    fun whole => shorter (List.append_cancel_left whole)

/-- Where something lies, something can lie. -/
theorem hasRoom_of_at? {location : Location} {entry : Entry}
    (here : files.at? location = some entry) : files.HasRoom location := by
  by_cases inside : location = []
  · rw [inside]
    exact ⟨fun name member => absurd member List.not_mem_nil, rfl⟩
  · have member := mem_entries_of_at? inside here
    exact ⟨(wellFormed.named _ member).2, wellFormed.around _ member⟩

/-! ### Trees that stay trees -/

/-- What is put where there is room for it keeps a tree a tree, if a folder stays a folder. -/
theorem put {location : Location} {entry : Entry} (some_ : location ≠ [])
    (hasRoom : files.HasRoom location)
    (stays : files.at? location = some .folder → entry = .folder) :
    (files.put location entry).WellFormed where
  single := by
    have others : ((files.entries.filter (·.1 != location)).map Prod.fst).Sublist
        (files.entries.map Prod.fst) := List.filter_sublist.map Prod.fst
    refine List.nodup_cons.mpr ⟨?_, wellFormed.single.sublist others⟩
    simp [List.mem_map, List.mem_filter]
  named item member := by
    rcases List.mem_cons.mp member with rfl | other
    · exact ⟨some_, hasRoom.named⟩
    · exact wellFormed.named item (List.mem_of_mem_filter other)
  around item member := by
    rw [at?_put _ _ _ _ some_]
    rcases List.mem_cons.mp member with rfl | other
    · rw [if_neg, hasRoom.around]
      intro same
      have shorter := congrArg List.length (show location.dropLast = location from same)
      rw [List.length_dropLast] at shorter
      have positive := List.length_pos_iff.mpr some_
      omega
    · have folder := wellFormed.around item (List.mem_of_mem_filter other)
      split
      · rename_i same
        rw [stays (same ▸ folder)]
      · exact folder

theorem hasRoom_of_enter {location inner : Location} {piece : Text} (noSlash : '/' ∉ piece)
    (leads : files.enter location piece = .ok inner) : files.HasRoom inner := by
  have folder := folder_of_enter leads
  have hasRoom := wellFormed.hasRoom_of_at? folder
  rw [enter, folder] at leads
  simp only at leads
  split at leads
  · cases leads
    exact hasRoom
  · rename_i idle
    split at leads
    · cases leads
      exact wellFormed.hasRoom_of_at? hasRoom.around
    · rename_i other
      split at leads
      · cases leads
      · rename_i short
        cases leads
        refine ⟨fun name member => ?_, by rw [List.dropLast_concat, folder]⟩
        rcases List.mem_append.mp member with outside | last
        · exact hasRoom.named name outside
        · rw [List.mem_singleton.mp last]
          exact ⟨fun empty => idle (Or.inl empty), noSlash, fun dot => idle (Or.inr dot), other,
            Nat.le_of_not_lt short⟩

/-- A path leads to places only where something can lie. -/
theorem hasRoom_of_locate {path : Path} {location : Location}
    (leads : files.locate path = .ok location) : files.HasRoom location := by
  have noSlash := Path.slash_not_mem_of_mem_cut path.text
  have some_ := Path.cut_ne_nil path.text
  rw [locate_of_walkable (written_of_locate leads) (walkable_of_locate leads), Path.pieces] at leads
  generalize Path.cut path.text = pieces at leads noSlash some_
  generalize files.origin path = start at leads
  -- The walk comes through folders of the tree, so only its last piece can lead out of it.
  induction pieces generalizing start with
  | nil => exact absurd rfl some_
  | cons piece pieces inductionHypothesis =>
    obtain ⟨next, step, further⟩ := walk_cons_eq_ok leads
    cases pieces with
    | nil =>
      cases further
      exact wellFormed.hasRoom_of_enter (noSlash piece List.mem_cons_self) step
    | cons second rest =>
      exact inductionHypothesis (fun other member => noSlash other (List.mem_cons_of_mem _ member))
        (List.cons_ne_nil _ _) next further

end WellFormed

theorem wellFormed_makeFolders {files : FileSystem} {location : Location} {pieces : List Text}
    (wellFormed : files.WellFormed) (noSlash : ∀ piece ∈ pieces, '/' ∉ piece) :
    (files.makeFolders location pieces).2.WellFormed := by
  induction pieces generalizing files location with
  | nil => exact wellFormed
  | cons piece pieces inductionHypothesis =>
    cases step : files.enter location piece with
    | error obstacle =>
      rw [makeFolders_of_error pieces step]
      exact wellFormed
    | ok inner =>
      rw [makeFolders_of_ok pieces step]
      refine inductionHypothesis ?_ fun other member => noSlash other (List.mem_cons_of_mem _ member)
      rw [withFolder]
      split
      · exact wellFormed
      · rename_i free
        exact wellFormed.put (ne_nil_of_free free)
          (wellFormed.hasRoom_of_enter (noSlash piece List.mem_cons_self) step) fun _ => rfl

theorem wellFormed_makeFolder {files : FileSystem} (wellFormed : files.WellFormed) (path : Path) :
    (files.makeFolder path).2.WellFormed := by
  rw [makeFolder_eq]
  split
  · exact wellFormed_makeFolders wellFormed (Path.slash_not_mem_of_mem_cut path.text)
  · exact wellFormed

end FileSystem

end Manuscript
