/-
This file says that what is found below a project's folder can be compiled. The files are
listed in order, each once, and a listed path that is put behind the project's own leads to
the file it was listed for: what the listing takes away, compiling puts back. This holds where
the project's path is plain. Behind a dot in front of something else the two no longer fit,
and the files that are listed are missing.
-/

import Mathlib.Logic.ExistsUnique
import Manuscript.Proofs.Discovery.Base
import Manuscript.Proofs.FileSystem.Tree
import Manuscript.Proofs.Path.Order
import Manuscript.Proofs.Project.Effects

namespace Manuscript

open Discovery FileSystem

/-- A project's folder in a tree. Its path is plain, what lies below it can be reached through
that path, and only files are named like manuscript files. -/
structure IsProject (files : FileSystem) (root : Path) (location : Location) : Prop where
  wellFormed : files.WellFormed
  leads : files.locate root = .ok location
  folder : files.at? location = some .folder
  plain : root.IsPlain
  reachable : ∀ way ∈ files.below location, isWalkable (root.join (.ofNames way)) = true
  filesOnly : ∀ way ∈ files.below location, isManuscript way = true →
    files.at? (location ++ way) ≠ some .folder

namespace Discovery

/-- The path of what lies below a project's folder, seen from there, is made of the names that
lead to it. -/
theorem IsBase.stripBase?_pathBelow {files : FileSystem} {root base : Path} {location : Location}
    (isBase : IsBase files root location base) {way : Location} (some_ : way ≠ [])
    (each : ∀ name ∈ way, IsName name) :
    ((pathBelow base way).stripBase? root).getD (pathBelow base way) = .ofNames way := by
  have components := Path.components_ofNames some_ each
  rcases isBase.steps with ⟨here, steps⟩ | ⟨away, steps⟩
  · -- A way of names does not begin with a dot, so nothing is taken away from it.
    have below : pathBelow base way = .ofNames way := by
      rw [pathBelow, here, if_pos rfl]
      rfl
    obtain ⟨first, rest, rfl⟩ := List.exists_cons_of_ne_nil some_
    rw [below, Path.stripBase?, steps, components]
    rfl
  · have below : pathBelow base way = base.join (.ofNames way) := by
      rw [pathBelow, away.isHere_eq, if_neg Bool.false_ne_true]
      rfl
    have joined := Path.components_join (written_of_locate isBase.leads)
      (Path.isAbsolute_ofNames some_ each)
    rw [Path.filterMap_pieces_ofNames some_ each, steps] at joined
    rw [below, Path.stripBase?, joined,
      if_pos (List.isPrefixOf_iff_prefix.mpr (List.prefix_append _ _)), List.drop_left]
    rfl

theorem mem_below_of_file {files : FileSystem} {location way : Location} {content : Bytes}
    (named : isManuscript way = true) (here : files.at? (location ++ way) = some (.file content)) :
    way ∈ files.below location := by
  have some_ : way ≠ [] := by
    rintro rfl
    cases named
  have inside : location ++ way ≠ [] := List.append_ne_nil_of_right_ne_nil location some_
  exact mem_below.mpr ⟨some_, _, mem_entries_of_at? inside here⟩

end Discovery

section Listing

variable {files : FileSystem} {root : Path} {location : Location}
  (project : IsProject files root location)

include project

/-- The manuscript files of a project are listed by the names that lead to them. -/
theorem IsProject.manuscriptFiles_eq :
    manuscriptFiles files root =
      (((files.below location).filter isManuscript).map Path.ofNames).mergeSort Path.before := by
  obtain ⟨base, isBase⟩ := exists_base project.leads project.folder project.plain
  rw [manuscriptFiles, paths, isBase.found]
  simp only [hasFolder_of_folder isBase.leads project.folder, if_true, isBase.leads, List.map_map]
  refine congrArg (List.mergeSort · Path.before) (List.map_congr_left fun way member => ?_)
  have below := List.mem_of_mem_filter member
  exact isBase.stripBase?_pathBelow (mem_below.mp below).1
    (project.wellFormed.isName_of_mem_below below)

theorem IsProject.mem_manuscriptFiles {entry : Path} :
    entry ∈ manuscriptFiles files root ↔
      ∃ way ∈ files.below location, isManuscript way = true ∧ .ofNames way = entry := by
  rw [project.manuscriptFiles_eq, List.mem_mergeSort, List.mem_map]
  simp only [List.mem_filter, and_assoc]

theorem IsProject.nodup_manuscriptFiles : (manuscriptFiles files root).Nodup := by
  rw [project.manuscriptFiles_eq, (List.mergeSort_perm _ _).nodup_iff, List.Nodup,
    List.pairwise_map]
  refine ((project.wellFormed.nodup_below location).filter isManuscript).imp_of_mem ?_
  intro first second one two apart same
  refine apart ?_
  have pieces {way : Location} (member : way ∈ (files.below location).filter isManuscript) :
      (Path.ofNames way).pieces = way := by
    have below := List.mem_of_mem_filter member
    exact Path.pieces_ofNames (mem_below.mp below).1 (project.wellFormed.isName_of_mem_below below)
  rw [← pieces one, ← pieces two, same]

/-- A listed path leads to what it was listed for. -/
theorem IsProject.locate_ofNames {way : Location} (member : way ∈ files.below location) :
    files.locate (root.join (.ofNames way)) = .ok (location ++ way) := by
  have some_ := (mem_below.mp member).1
  have each := project.wellFormed.isName_of_mem_below member
  rw [locate_join project.leads (Path.isAbsolute_ofNames some_ each) (project.reachable way member),
    Path.pieces_ofNames some_ each, project.wellFormed.walk_below member]

/-- What is listed is a file. -/
theorem IsProject.exists_content {way : Location} (member : way ∈ files.below location)
    (named : isManuscript way = true) :
    ∃ content, files.at? (location ++ way) = some (.file content) := by
  cases here : files.at? (location ++ way) with
  | none => exact absurd here (at?_ne_none_of_mem_below member)
  | some entry =>
    cases entry with
    | folder => exact absurd here (project.filesOnly way member named)
    | file content => exact ⟨content, rfl⟩

/-- Where the files of a project can be read, they can still be read when the document has been
emptied. -/
theorem IsProject.readLines_emptied {room : FileSystem} {settings : Settings} {document : Path}
    {reported : List Notice} {place : Location} {done : Compilation}
    (wrote : Wrote room root settings document reported place done)
    (around : Confined document files room)
    (readable : ∀ way content, isManuscript way = true →
      files.at? (location ++ way) = some (.file content) → none ∉ Text.fileLines content)
    {entry : Path} (member : entry ∈ manuscriptFiles files root) :
    ∃ lines, (room.put place (.file [])).readLines (root.join entry) = .ok lines ∧
      none ∉ lines := by
  obtain ⟨way, below, named, rfl⟩ := project.mem_manuscriptFiles.mp member
  obtain ⟨content, here⟩ := project.exists_content below named
  rcases wrote.readLines_emptied around (project.locate_ofNames below) here with kept | emptied
  · exact ⟨_, kept, readable way content named here⟩
  · exact ⟨_, emptied, List.not_mem_nil⟩

/-- Compiling a project in the order that is found neither misses a file nor fails on one. -/
theorem IsProject.compileProject_of_found {registry : Registry} {request : Request}
    {settings : Settings} {reported : List Notice} (same : request.root = root)
    (loaded : request.load files = .ok (settings, reported))
    (found : settings.options.order = manuscriptFiles files root)
    (readable : ∀ way content, isManuscript way = true →
      files.at? (location ++ way) = some (.file content) → none ∉ Text.fileLines content) :
    let done := compileProject files registry request
    (∀ path, .missingFile path ∉ done.notices) ∧
      ∀ path, done.outcome ≠ .error (.inputNotRead path) := by
  intro done
  have notReported (path : Path) : .missingFile path ∉ reported := by
    intro member
    rcases Request.report_of_load loaded member with other | other <;> cases other
  rcases compileProject_cases files registry request with
    ⟨_, early, notices⟩ | ⟨chosen, told, format, chose, _, closed | ⟨place, wrote⟩⟩
  · refine ⟨fun path member => ?_, fun path fails => ?_⟩
    · rcases notices _ member with other | ⟨chosen, told, chose, inside⟩
      · cases other
      · cases Except.ok.inj (loaded.symm.trans chose)
        exact notReported path inside
    · cases early.isEarly_of_outcome fails
  · cases Except.ok.inj (loaded.symm.trans chose)
    have ended : done = _ := closed
    rw [ended]
    exact ⟨notReported, nofun⟩
  · cases Except.ok.inj (loaded.symm.trans chose)
    rw [same] at wrote
    have around := confined_makeRoom files (request.output.withExtension format.extension)
    obtain ⟨complete, count, ended⟩ := Compiler.compileFiles_of_readable
      (fun entry member => project.readLines_emptied wrote around readable (found ▸ member))
      (.new settings.options settings.names) 0
    refine ⟨fun path member => ?_, fun path fails => ?_⟩
    · rcases wrote.notices _ member with earlier | passed | last
      · exact notReported path earlier
      · exact complete path passed
      · cases last
    · rw [wrote.outcome] at fails
      cases (congrArg (Except.map _) ended).symm.trans fails

end Listing

/-- What is found in a project can be compiled. The files are listed in order and each once;
every path of the list leads to a manuscript file below the project's folder, and to every such
file leads one path of the list. So a project that is compiled in this order neither misses a
file nor fails on one, if its files can be read. -/
theorem IsProject.manuscriptFiles_compiles {files : FileSystem} {root : Path} {location : Location}
    (project : IsProject files root location) :
    let order := manuscriptFiles files root
    order.Pairwise (fun first second => first.before second = true) ∧ order.Nodup ∧
      (∀ entry ∈ order, ∃ way content, isManuscript way = true ∧
        files.locate (root.join entry) = .ok (location ++ way) ∧
        files.at? (location ++ way) = some (.file content)) ∧
      (∀ way content, isManuscript way = true →
        files.at? (location ++ way) = some (.file content) →
          ∃! entry, entry ∈ order ∧ files.locate (root.join entry) = .ok (location ++ way)) ∧
      ∀ registry request settings reported, request.root = root →
        request.load files = .ok (settings, reported) → settings.options.order = order →
        (∀ way content, isManuscript way = true →
          files.at? (location ++ way) = some (.file content) → none ∉ Text.fileLines content) →
        let done := compileProject files registry request
        (∀ path, .missingFile path ∉ done.notices) ∧
          ∀ path, done.outcome ≠ .error (.inputNotRead path) := by
  intro order
  refine ⟨Path.pairwise_mergeSort _, project.nodup_manuscriptFiles, fun entry member => ?_,
    fun way content named here => ?_, fun registry request settings reported same loaded found =>
      project.compileProject_of_found same loaded found⟩
  · obtain ⟨way, below, named, rfl⟩ := project.mem_manuscriptFiles.mp member
    obtain ⟨content, here⟩ := project.exists_content below named
    exact ⟨way, content, named, project.locate_ofNames below, here⟩
  · have below := mem_below_of_file named here
    refine ⟨.ofNames way, ⟨project.mem_manuscriptFiles.mpr ⟨way, below, named, rfl⟩,
      project.locate_ofNames below⟩, ?_⟩
    rintro other ⟨member, leads⟩
    obtain ⟨away, inside, _, rfl⟩ := project.mem_manuscriptFiles.mp member
    rw [project.locate_ofNames inside] at leads
    rw [List.append_cancel_left (Except.ok.inj leads)]

/-- The lines of a file. A folder has none. -/
def Entry.lines : Entry → List (Option Text)
  | folder => []
  | file content => Text.fileLines content

/-- A project with a file in a part of its own, beside a file that is no manuscript. -/
def partedProject : FileSystem where
  entries := [(["p".toList], .folder), (["p".toList, "part".toList], .folder),
    (["p".toList, "part".toList, "a.proze".toList], .file (Text.encode "Two.\n".toList)),
    (["p".toList, "b.proze".toList], .file (Text.encode "One.\n".toList)),
    (["p".toList, "notes.md".toList], .file (Text.encode "Note.\n".toList))]
  workingFolder := []

/-- The project is found and compiled by a path with a slash at its end. -/
theorem manuscriptFiles_compiles_behind_slash :
    let root : Path := .ofString "p/"
    let done := compileProject partedProject .standard (.new root "txt".toList)
    IsProject partedProject root ["p".toList] ∧
      manuscriptFiles partedProject root = [.ofString "b.proze", .ofString "part/a.proze"] ∧
      (∃! entry, entry ∈ manuscriptFiles partedProject root ∧
        partedProject.locate (root.join entry) =
          .ok ["p".toList, "part".toList, "a.proze".toList]) ∧
      (∀ path, .missingFile path ∉ done.notices) ∧
      ∀ path, done.outcome ≠ .error (.inputNotRead path) := by
  intro root done
  have project : IsProject partedProject root ["p".toList] :=
    ⟨by decide +kernel, by decide +kernel, by decide +kernel, by decide +kernel,
      by decide +kernel, by decide +kernel⟩
  have found : ((partedProject.below ["p".toList]).filter isManuscript).map Path.ofNames =
      [.ofString "part/a.proze", .ofString "b.proze"] := by decide +kernel
  have listed : manuscriptFiles partedProject root =
      [.ofString "b.proze", .ofString "part/a.proze"] := by
    have later : (Path.ofString "part/a.proze").before (.ofString "b.proze") = false := by
      decide +kernel
    rw [project.manuscriptFiles_eq, found]
    simp [List.mergeSort, List.MergeSort.Internal.splitInTwo, later]
  have noSettings : Settings.file? partedProject root = none := by decide +kernel
  have loaded : (Request.new root "txt".toList).load partedProject =
      .ok (Settings.standardFor partedProject root, [.noSettingsFile]) := by
    show Settings.load partedProject root = _
    rw [Settings.load, noSettings]
  have readable : ∀ item ∈ partedProject.entries, none ∉ item.2.lines := by decide +kernel
  obtain ⟨_, _, _, reached, compiles⟩ := project.manuscriptFiles_compiles
  refine ⟨project, listed, ?_, ?_⟩
  · exact reached ["part".toList, "a.proze".toList] (Text.encode "Two.\n".toList)
      (by decide +kernel) (by decide +kernel)
  · refine compiles .standard _ _ _ rfl loaded rfl fun way content _ here => ?_
    exact readable _ (mem_entries_of_at? (List.cons_ne_nil _ _) here)

/-- Behind a dot, a file is listed with the project's own path in front, and is missing where it
is looked for. -/
theorem manuscriptFiles_behind_dot :
    let files : FileSystem := ⟨[(["p".toList], .folder),
      (["p".toList, "one.proze".toList], .file (Text.encode "One.\n".toList))], []⟩
    let root : Path := .ofString "./p"
    let done := compileProject files .standard (.new root "txt".toList)
    files.WellFormed ∧ files.hasFile (root.join (.ofString "one.proze")) = true ∧
      manuscriptFiles files root = [.ofString "p/one.proze"] ∧
      files.find (root.join (.ofString "p/one.proze")) = .error .missing ∧
      .missingFile (.ofString "./p/p/one.proze") ∈ done.notices := by
  decide +kernel

/-- A folder that is named like a manuscript file is listed like one, and cannot be read. -/
example :
    let files : FileSystem :=
      ⟨[(["p".toList], .folder), (["p".toList, "d.proze".toList], .folder)], []⟩
    let root : Path := .ofString "p"
    let done := compileProject files .standard (.new root "txt".toList)
    manuscriptFiles files root = [.ofString "d.proze"] ∧
      done.outcome = .error (.inputNotRead (.ofString "p/d.proze")) := by
  decide +kernel

end Manuscript
