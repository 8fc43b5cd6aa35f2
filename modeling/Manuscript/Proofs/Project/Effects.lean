/-
This file says what compiling a project changes. A compilation that ends early changes
nothing. Any other one makes folders around the document, where they are missing, and writes
the document; nothing else is made or changed, and what is left is a tree again. Where no file
of the order is the document itself, emptying the document in front of the compilation takes
nothing away from it: the document holds what the order comes to in the tree as it is
afterwards, and in the tree as it was before, unless making the folders has opened a way to a
file that was missing.
-/

import Manuscript.Proofs.FileSystem.Tree
import Manuscript.Proofs.Project.Exits

namespace Manuscript

open FileSystem

theorem confined_makeRoom (files : FileSystem) (document : Path) :
    Confined document files (makeRoom files document).2 := by
  rw [makeRoom]
  split
  · exact Confined.refl document files
  · rename_i around parent
    split
    · exact Confined.refl document files
    · exact confined_makeFolder files parent

theorem wellFormed_makeRoom {files : FileSystem} (wellFormed : files.WellFormed)
    (document : Path) : (makeRoom files document).2.WellFormed := by
  rw [makeRoom]
  split
  · exact wellFormed
  · split
    · exact wellFormed
    · exact wellFormed_makeFolder wellFormed _

/-- What an order comes to depends only on the lines of its files. -/
theorem Settings.content_congr {settings : Settings} {first second : FileSystem} {root : Path}
    (same : ∀ entry ∈ settings.options.order,
      first.readLines (root.join entry) = second.readLines (root.join entry)) :
    settings.content first root = settings.content second root := by
  have passages : settings.passage first root = settings.passage second root :=
    Compiler.compileFiles_congr same _ 0
  rw [content, passages, content]

/-! ### A document that is written -/

section Wrote

variable {room : FileSystem} {root : Path} {settings : Settings} {document : Path}
  {reported : List Notice} {place : Location} {done : Compilation}
  (wrote : Wrote room root settings document reported place done)

include wrote

theorem Wrote.at?_emptied (location : Location) :
    (room.put place (.file [])).at? location =
      if location = place then some (.file []) else room.at? location :=
  at?_put _ _ _ _ (ne_nil_of_not_folder wrote.free)

theorem Wrote.here_emptied : (room.put place (.file [])).at? place = some (.file []) := by
  rw [wrote.at?_emptied, if_pos rfl]

theorem Wrote.free_emptied : (room.put place (.file [])).at? place ≠ some .folder := by
  intro folder
  rw [wrote.here_emptied] at folder
  cases folder

theorem Wrote.at?_files (location : Location) :
    done.files.at? location =
      if location = place then
        some (.file (settings.content (room.put place (.file [])) root))
      else room.at? location := by
  rw [wrote.files, at?_put _ _ _ _ (ne_nil_of_not_folder wrote.free), wrote.at?_emptied]
  split <;> rfl

theorem Wrote.leads_emptied : (room.put place (.file [])).locate document = .ok place :=
  (keeps_put_file [] wrote.free).locate_eq_ok wrote.leads

/-- Between emptying the document and writing it, no path changes where it leads. -/
theorem Wrote.locate_files (path : Path) :
    done.files.locate path = (room.put place (.file [])).locate path := by
  rw [wrote.files]
  exact (keeps_put_file _ wrote.free_emptied).locate_eq_of_both
    (keeps_of_put_file _ wrote.here_emptied) path

theorem Wrote.leads_files : done.files.locate document = .ok place := by
  rw [wrote.locate_files, wrote.leads_emptied]

theorem Wrote.confined {files : FileSystem} (around : Confined document files room) :
    Confined document files done.files := by
  have emptied := around.put_document wrote.leads wrote.free []
  rw [wrote.files]
  exact emptied.put_document wrote.leads_emptied wrote.free_emptied _

/-- What was a file before holds its lines still when the document is emptied, unless it is the
document: then it holds none. -/
theorem Wrote.readLines_emptied {files : FileSystem} (around : Confined document files room)
    {path : Path} {location : Location} {content : Bytes} (leads : files.locate path = .ok location)
    (here : files.at? location = some (.file content)) :
    (room.put place (.file [])).readLines path = .ok (Text.fileLines content) ∨
      (room.put place (.file [])).readLines path = .ok [] := by
  have emptied := around.put_document wrote.leads wrote.free []
  rw [readLines_of_locate (emptied.keeps.locate_eq_ok leads), wrote.at?_emptied]
  by_cases same : location = place
  · rw [if_pos same]
    exact Or.inr rfl
  · rw [if_neg same]
    rcases around.place location with kept | ⟨free, _⟩ | ⟨_, _, there⟩
    · rw [kept, here]
      exact Or.inl rfl
    · rw [here] at free
      cases free
    · exact absurd (Except.ok.inj (there.symm.trans wrote.leads)) same

theorem Wrote.not_endedEarly : ¬ done.EndedEarly := by
  intro early
  have outcome := wrote.outcome
  cases ended : (settings.passage (room.put place (.file [])) root).outcome with
  | ok count =>
    rw [ended] at outcome
    exact early.outcome_ne_some document outcome
  | error failure =>
    rw [ended] at outcome
    obtain ⟨entry, _, rfl, _⟩ := Compiler.unreadable_of_compileFiles ended
    cases early.isEarly_of_outcome outcome

theorem Wrote.wellFormed (tree : room.WellFormed) : done.files.WellFormed := by
  have inside := ne_nil_of_not_folder wrote.free
  have emptied : (room.put place (.file [])).WellFormed :=
    tree.put inside (tree.hasRoom_of_locate wrote.leads) fun folder => absurd folder wrote.free
  rw [wrote.files]
  exact emptied.put inside (emptied.hasRoom_of_locate wrote.leads_emptied)
    fun folder => absurd folder wrote.free_emptied

theorem Wrote.document_eq {other : Path} (written : done.outcome = .ok (some other)) :
    other = document := by
  rw [wrote.outcome] at written
  cases ended : (settings.passage (room.put place (.file [])) root).outcome with
  | error failure =>
    rw [ended] at written
    cases written
  | ok count =>
    rw [ended] at written
    exact (Option.some.inj (Except.ok.inj written)).symm

/-- Behind an order that leaves the document alone, the document holds what the order comes to
in the tree that is left. -/
theorem Wrote.holds
    (apart : ∀ entry ∈ settings.options.order, done.files.locate (root.join entry) ≠ .ok place) :
    done.files.at? place = some (.file (settings.content done.files root)) := by
  rw [wrote.at?_files, if_pos rfl]
  rw [Settings.content_congr fun entry member => ?_]
  refine readLines_congr (wrote.locate_files _).symm fun location leads => ?_
  have other : location ≠ place := by
    rintro rfl
    exact apart entry member leads
  rw [wrote.at?_files, wrote.at?_emptied, if_neg other, if_neg other]

end Wrote

/-- What the order comes to is the same before and behind the compilation, if no file of it is
the document and none that was missing has come into reach. -/
theorem FileSystem.Confined.content_eq {document root : Path} {before after : FileSystem}
    {settings : Settings} (confined : Confined document before after)
    (apart : ∀ entry ∈ settings.options.order,
      after.locate (root.join entry) ≠ after.locate document)
    (missing : ∀ entry ∈ settings.options.order,
      before.readLines (root.join entry) = .error .missing →
        after.readLines (root.join entry) = .error .missing) :
    settings.content after root = settings.content before root := by
  refine Settings.content_congr fun entry member => ?_
  by_cases found : before.readLines (root.join entry) = .error .missing
  · rw [missing entry member found, found]
  · exact confined.readLines_eq found (apart entry member)

/-! ### A project -/

/-- Compiling a project leaves a tree behind where it finds one. -/
theorem wellFormed_compileProject {files : FileSystem} (wellFormed : files.WellFormed)
    (registry : Registry) (request : Request) :
    (compileProject files registry request).files.WellFormed := by
  rcases compileProject_cases files registry request with
    ⟨same, _⟩ | ⟨settings, reported, format, _, _, closed | ⟨place, wrote⟩⟩
  · rw [same]
    exact wellFormed
  · rw [closed]
    exact wellFormed_makeRoom wellFormed _
  · exact wrote.wellFormed (wellFormed_makeRoom wellFormed _)

/-- Only a document that is under way is made room for, and it is the only file that changes. -/
theorem compileProject_effects (files : FileSystem) (registry : Registry) (request : Request) :
    let done := compileProject files registry request
    (done.EndedEarly → done.files = files) ∧
      (¬ done.EndedEarly → ∃ format, registry.resolve request.format = .ok format ∧
        Confined (request.output.withExtension format.extension) files done.files) ∧
      ∀ document, done.outcome = .ok (some document) →
        ∃ format settings reported place,
          registry.resolve request.format = .ok format ∧
          document = request.output.withExtension format.extension ∧
          request.load files = .ok (settings, reported) ∧
          done.files.locate document = .ok place ∧
          ((∀ entry ∈ settings.options.order,
              done.files.locate (request.root.join entry) ≠ .ok place) →
            done.files.at? place = some (.file (settings.content done.files request.root)) ∧
            ((∀ entry ∈ settings.options.order,
                files.readLines (request.root.join entry) = .error .missing →
                  done.files.readLines (request.root.join entry) = .error .missing) →
              settings.content done.files request.root =
                settings.content files request.root)) := by
  intro done
  rcases compileProject_cases files registry request with
    ⟨same, early, _⟩ | ⟨settings, reported, format, loaded, known, closed | ⟨place, wrote⟩⟩
  · exact ⟨fun _ => same, fun late => absurd early late, fun document written =>
      absurd written (early.outcome_ne_some document)⟩
  · have ended : done = _ := closed
    rw [ended]
    refine ⟨fun early => ?_, fun _ => ⟨format, known, confined_makeRoom files _⟩, nofun⟩
    cases early.isEarly_of_outcome rfl
  · have confined := wrote.confined (confined_makeRoom files _)
    refine ⟨fun early => absurd early wrote.not_endedEarly, fun _ => ⟨format, known, confined⟩,
      fun document written => ?_⟩
    have path := wrote.document_eq written
    refine ⟨format, settings, reported, place, known, path, loaded, path ▸ wrote.leads_files,
      fun apart => ⟨wrote.holds apart, confined.content_eq fun entry member => ?_⟩⟩
    exact wrote.leads_files ▸ apart entry member

/-- A project of one file, beside a file that is none of its own. -/
def loneProject : FileSystem where
  entries := [(["p".toList], .folder),
    (["p".toList, "one.proze".toList], .file (Text.encode "One.\n".toList)),
    (["p".toList, "keep.txt".toList], .file (Text.encode "Kept.\n".toList))]
  workingFolder := []

/-- Its settings, which no file gives. -/
def loneSettings : Settings :=
  ⟨{ Options.standard with order := [.ofString "one.proze"] }, .none⟩

/-- The project is compiled into a folder that is not there yet. -/
theorem compileProject_effects_in_new_folder :
    let request : Request :=
      { Request.new (.ofString "p") "txt".toList with output := .ofString "p/new/out" }
    let document : Path := .ofString "p/new/out.txt"
    let place : Location := ["p".toList, "new".toList, "out.txt".toList]
    let done := compileProject loneProject .standard request
    done.outcome = .ok (some document) ∧ Confined document loneProject done.files ∧
      done.files.at? place.dropLast = some .folder ∧
      done.files.at? place = some (.file (loneSettings.content loneProject request.root)) := by
  intro request document place done
  have written : done.outcome = .ok (some document) := by decide +kernel
  have late : ¬ done.EndedEarly := fun early => early.outcome_ne_some document written
  obtain ⟨_, confined, holds⟩ := compileProject_effects loneProject .standard request
  obtain ⟨format, known, inside⟩ := confined late
  have isPlain : format = .plainText := Except.ok.inj (known.symm.trans (by decide +kernel))
  obtain ⟨_, settings, _, other, _, _, loaded, leads, content⟩ := holds document written
  have chosen : request.load loneProject = .ok (loneSettings, [.noSettingsFile]) := by
    decide +kernel
  have there : done.files.locate document = .ok place := by decide +kernel
  have isLone : settings = loneSettings :=
    congrArg Prod.fst (Except.ok.inj (loaded.symm.trans chosen))
  have isPlace : other = place := Except.ok.inj (leads.symm.trans there)
  rw [isLone, isPlace] at content
  rw [isPlain] at inside
  obtain ⟨here, before⟩ := content (by decide +kernel)
  refine ⟨written, inside, by decide +kernel, ?_⟩
  rw [here, before (by decide +kernel)]

end Manuscript
