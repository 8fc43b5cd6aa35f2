/-
This file says where paths lead. A path is walked piece by piece, so a path that is put
behind another one leads on from where the first one leads. A tree in which folders have
stayed folders and files have stayed files is walked in the same way as before, except
where a path came to nothing before.
-/

import Manuscript.Proofs.Path.Pieces

namespace Manuscript

namespace FileSystem

/-! ### Walking -/

theorem walk_append (files : FileSystem) (location : Location) (first second : List Text) :
    files.walk location (first ++ second) =
      files.walk location first >>= fun inner => files.walk inner second :=
  List.foldlM_append

theorem walk_append_of_ok {files : FileSystem} {location inner : Location} {first : List Text}
    (second : List Text) (leads : files.walk location first = .ok inner) :
    files.walk location (first ++ second) = files.walk inner second := by
  rw [walk_append, leads]
  rfl

/-- Walking on needs a folder to walk on from. -/
theorem folder_of_enter {files : FileSystem} {location inner : Location} {piece : Text}
    (leads : files.enter location piece = .ok inner) : files.at? location = some .folder := by
  rw [enter] at leads
  split at leads
  · cases leads
  · cases leads
  · assumption

/-- Every walk that ends begins with one step and goes on from there. -/
theorem walk_cons_eq_ok {files : FileSystem} {location inner : Location} {piece : Text}
    {pieces : List Text} (leads : files.walk location (piece :: pieces) = .ok inner) :
    ∃ next, files.enter location piece = .ok next ∧ files.walk next pieces = .ok inner := by
  rw [walk, List.foldlM_cons] at leads
  cases step : files.enter location piece with
  | error obstacle =>
    rw [step] at leads
    cases leads
  | ok next =>
    rw [step] at leads
    exact ⟨next, rfl, leads⟩

theorem walk_cons_of_ok {files : FileSystem} {location next : Location} {piece : Text}
    (pieces : List Text) (step : files.enter location piece = .ok next) :
    files.walk location (piece :: pieces) = files.walk next pieces := by
  rw [walk, List.foldlM_cons, step]
  rfl

/-- A walk that ends at a folder has come through folders only. -/
theorem folder_of_walk {files : FileSystem} {location inner : Location} {pieces : List Text}
    (leads : files.walk location pieces = .ok inner) (folder : files.at? inner = some .folder) :
    files.at? location = some .folder := by
  cases pieces with
  | nil =>
    cases leads
    exact folder
  | cons piece pieces =>
    obtain ⟨next, step, _⟩ := walk_cons_eq_ok leads
    exact folder_of_enter step

/-- Empty pieces and single dots lead nowhere else. -/
theorem eq_of_walk_of_idle {files : FileSystem} {location inner : Location} {pieces : List Text}
    (idle : ∀ piece ∈ pieces, piece = [] ∨ piece = ['.'])
    (leads : files.walk location pieces = .ok inner) : inner = location := by
  induction pieces generalizing location with
  | nil => exact (Except.ok.inj leads).symm
  | cons piece pieces inductionHypothesis =>
    obtain ⟨next, step, further⟩ := walk_cons_eq_ok leads
    have folder := folder_of_enter step
    rw [enter, folder] at step
    simp only [if_pos (idle piece List.mem_cons_self), Except.ok.injEq] at step
    rw [inductionHypothesis (fun other member => idle other (List.mem_cons_of_mem _ member)) further,
      step]

/-- An empty piece leads nowhere else, but it asks for a folder. -/
theorem walk_append_empty {files : FileSystem} {location inner : Location} {pieces : List Text}
    (leads : files.walk location (pieces ++ [[]]) = .ok inner) :
    files.walk location pieces = .ok inner ∧ files.at? inner = some .folder := by
  rw [walk_append] at leads
  cases front : files.walk location pieces with
  | error obstacle =>
    rw [front] at leads
    cases leads
  | ok next =>
    rw [front] at leads
    have ends : files.walk next [[]] = .ok inner := leads
    have same := eq_of_walk_of_idle (fun piece member => Or.inl (List.mem_singleton.mp member)) ends
    obtain ⟨_, step, _⟩ := walk_cons_eq_ok ends
    rw [same]
    exact ⟨rfl, folder_of_enter step⟩

/-- Along a way of names through folders, walking goes down by those names. -/
theorem walk_names {files : FileSystem} {location : Location} {way : List Text}
    (each : ∀ name ∈ way, IsName name)
    (folders : ∀ front, front <+: way → front ≠ way → files.at? (location ++ front) = some .folder) :
    files.walk location way = .ok (location ++ way) := by
  induction way generalizing location with
  | nil =>
    rw [List.append_nil]
    rfl
  | cons name way inductionHypothesis =>
    have isName := each name List.mem_cons_self
    have here : files.at? location = some .folder := by
      have := folders [] List.nil_prefix (List.cons_ne_nil name way).symm
      rwa [List.append_nil] at this
    have step : files.enter location name = .ok (location ++ [name]) := by
      rw [enter, here]
      simp only
      rw [if_neg (not_or.mpr ⟨isName.written, isName.notHere⟩), if_neg isName.notAround,
        if_neg (Nat.not_lt.mpr isName.short)]
    rw [walk_cons_of_ok way step,
      inductionHypothesis (fun other member => each other (List.mem_cons_of_mem _ member)) ?_,
      List.append_assoc, List.singleton_append]
    intro front begins shorter
    rw [List.append_assoc, List.singleton_append]
    exact folders (name :: front) (List.cons_prefix_cons.mpr ⟨rfl, begins⟩)
      fun whole => shorter (List.cons.inj whole).2

/-! ### Paths -/

theorem byteLength_le_of_sublist {first second : Text} (part : first.Sublist second) :
    first.byteLength ≤ second.byteLength := by
  induction part with
  | slnil => exact Nat.le_refl _
  | cons character _ inductionHypothesis =>
    exact Nat.le_trans inductionHypothesis (Nat.le_add_left _ _)
  | cons_cons character _ inductionHypothesis =>
    exact Nat.add_le_add_left inductionHypothesis _

/-- What is left of a path that can be walked can be walked too. -/
theorem isWalkable_of_sublist {first second : Path} (part : first.text.Sublist second.text)
    (walkable : isWalkable second = true) : isWalkable first = true := by
  rw [isWalkable, Bool.and_eq_true, Bool.not_eq_true', decide_eq_true_iff] at walkable ⊢
  refine ⟨?_, Nat.lt_of_le_of_lt (byteLength_le_of_sublist part) walkable.2⟩
  have outside : Char.ofNat 0 ∉ second.text := by
    rw [← List.contains_iff_mem, walkable.1]
    exact Bool.false_ne_true
  rw [← Bool.not_eq_true, List.contains_iff_mem]
  exact fun inside => outside (part.mem inside)

theorem locate_of_walkable {files : FileSystem} {path : Path} (written : path.text ≠ [])
    (walkable : isWalkable path = true) :
    files.locate path = files.walk (files.origin path) path.pieces := by
  rw [locate, if_neg written, if_pos walkable]

theorem written_of_locate {files : FileSystem} {path : Path} {location : Location}
    (leads : files.locate path = .ok location) : path.text ≠ [] := by
  intro empty
  rw [locate, if_pos empty] at leads
  cases leads

theorem walkable_of_locate {files : FileSystem} {path : Path} {location : Location}
    (leads : files.locate path = .ok location) : isWalkable path = true := by
  rw [locate, if_neg (written_of_locate leads)] at leads
  by_contra short
  rw [if_neg short] at leads
  cases leads

/-- A path that is put behind another one leads on from where that one leads. -/
theorem locate_join {files : FileSystem} {base entry : Path} {location : Location}
    (leads : files.locate base = .ok location) (relative : entry.isAbsolute = false)
    (walkable : isWalkable (base.join entry) = true) :
    files.locate (base.join entry) = files.walk location entry.pieces := by
  have written := written_of_locate leads
  have same : files.origin (base.join entry) = files.origin base := by
    rw [origin, origin, Path.isAbsolute_join written relative]
  have front : files.walk (files.origin base) (Path.cut base.stem) = .ok location := by
    rw [locate_of_walkable written (walkable_of_locate leads)] at leads
    rcases base.pieces_eq_stem with pieces | pieces
    · rwa [pieces] at leads
    · rw [pieces] at leads
      exact (walk_append_empty leads).1
  rw [locate_of_walkable (Path.text_join_ne_nil written relative) walkable, same,
    Path.pieces_join written relative, walk_append_of_ok _ front]

theorem find_eq_ok {files : FileSystem} {path : Path} {location : Location} {entry : Entry}
    (leads : files.locate path = .ok location) (here : files.at? location = some entry) :
    files.find path = .ok entry := by
  rw [find, leads]
  simp [here, bind, Except.bind]

theorem readLines_of_locate {files : FileSystem} {path : Path} {location : Location}
    (leads : files.locate path = .ok location) :
    files.readLines path =
      match files.at? location with
      | none => .error .missing
      | some .folder => .ok [none]
      | some (.file content) => .ok (Text.fileLines content) := by
  rw [readLines, find, leads]
  cases here : files.at? location with
  | none => simp [here, bind, Except.bind]
  | some entry => cases entry <;> simp [here, bind, Except.bind]

/-- A path that leads to the same in two trees shows the same lines. -/
theorem readLines_congr {first second : FileSystem} {path : Path}
    (located : second.locate path = first.locate path)
    (same : ∀ location, first.locate path = .ok location →
      second.at? location = first.at? location) :
    second.readLines path = first.readLines path := by
  cases leads : first.locate path with
  | error obstacle =>
    rw [leads] at located
    rw [readLines, readLines, find, find, leads, located]
    rfl
  | ok location =>
    rw [leads] at located
    rw [readLines_of_locate leads, readLines_of_locate located, same location leads]

/-! ### Trees that keep what another has -/

/-- Folders have stayed folders and files have stayed files, whatever they hold. -/
structure Keeps (before after : FileSystem) : Prop where
  workingFolder : after.workingFolder = before.workingFolder
  folder : ∀ location, before.at? location = some .folder → after.at? location = some .folder
  file : ∀ location content, before.at? location = some (.file content) →
    ∃ other, after.at? location = some (.file other)

theorem Keeps.refl (files : FileSystem) : Keeps files files where
  workingFolder := rfl
  folder _ here := here
  file _ content here := ⟨content, here⟩

theorem Keeps.trans {first second third : FileSystem} (one : Keeps first second)
    (other : Keeps second third) : Keeps first third where
  workingFolder := other.workingFolder.trans one.workingFolder
  folder location here := other.folder location (one.folder location here)
  file location content here := by
    obtain ⟨_, there⟩ := one.file location content here
    exact other.file location _ there

section Keeps

variable {before after : FileSystem} (keeps : Keeps before after)

include keeps

theorem Keeps.enter_eq {location : Location} {piece : Text}
    (found : before.enter location piece ≠ .error .missing) :
    after.enter location piece = before.enter location piece := by
  cases here : before.at? location with
  | none =>
    rw [enter, here] at found
    exact absurd rfl found
  | some entry =>
    cases entry with
    | folder => rw [enter, enter, here, keeps.folder location here]
    | file content =>
      obtain ⟨other, there⟩ := keeps.file location content here
      rw [enter, enter, here, there]

theorem Keeps.walk_eq {location : Location} {pieces : List Text}
    (found : before.walk location pieces ≠ .error .missing) :
    after.walk location pieces = before.walk location pieces := by
  induction pieces generalizing location with
  | nil => rfl
  | cons piece pieces inductionHypothesis =>
    rw [walk, List.foldlM_cons] at found
    rw [walk, walk, List.foldlM_cons, List.foldlM_cons]
    cases step : before.enter location piece with
    | error obstacle =>
      have stays : before.enter location piece ≠ .error .missing := by
        rw [step] at found ⊢
        exact found
      rw [keeps.enter_eq stays, step]
      rfl
    | ok next =>
      have stays : before.enter location piece ≠ .error .missing := by
        rw [step]
        exact nofun
      rw [step] at found
      rw [keeps.enter_eq stays, step]
      exact inductionHypothesis found

theorem Keeps.locate_eq {path : Path} (found : before.locate path ≠ .error .missing) :
    after.locate path = before.locate path := by
  have origin : after.origin path = before.origin path := by
    rw [FileSystem.origin, FileSystem.origin, keeps.workingFolder]
  rw [locate, locate, origin]
  rw [locate] at found
  split
  · rfl
  · rename_i written
    rw [if_neg written] at found
    split
    · rename_i walkable
      rw [if_pos walkable] at found
      exact keeps.walk_eq found
    · rfl

theorem Keeps.locate_eq_ok {path : Path} {location : Location}
    (leads : before.locate path = .ok location) : after.locate path = .ok location := by
  rw [keeps.locate_eq (by rw [leads]; exact nofun), leads]

/-- Trees that keep what the other has are walked alike. -/
theorem Keeps.locate_eq_of_both (back : Keeps after before) (path : Path) :
    after.locate path = before.locate path := by
  by_cases missing : before.locate path = .error .missing
  · by_contra different
    have found : after.locate path ≠ .error .missing := by
      rwa [missing] at different
    exact different (back.locate_eq found).symm
  · exact keeps.locate_eq missing

end Keeps

end FileSystem

end Manuscript
