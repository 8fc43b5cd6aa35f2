/-
This file lists the ways in which compiling a project can end. It ends before anything has
been made, with a failure of the settings or of the format or because there is nothing to
compile; or there is no room for the document; or the document's place is found, and then the
document is emptied and what the files of the order come to is written there, whether or not
they are compiled to the end.
-/

import Manuscript.Proofs.Compiler.Files

namespace Manuscript

/-- Whether a failure is one of the settings or of the choice of a format. -/
def Failure.isEarly : Failure → Bool
  | unreadableSettings _ | unknownSettingsLanguage _ | malformedJson _ | malformedYaml _
  | unknownFormat _ | plannedFormat _ => true
  | outputNotCreated _ | inputNotRead _ => false

/-! ### Early failures -/

theorem error_of_bind {Value Other : Type} {first : Except Failure Value}
    {further : Value → Except Failure Other} {failure : Failure}
    (fails : first >>= further = .error failure) :
    first = .error failure ∨ ∃ value, first = .ok value ∧ further value = .error failure := by
  cases first with
  | error other =>
    cases fails
    exact Or.inl rfl
  | ok value => exact Or.inr ⟨value, rfl, fails⟩

theorem ok_of_bind {Value Other : Type} {first : Except Failure Value}
    {further : Value → Except Failure Other} {other : Other}
    (leads : first >>= further = .ok other) :
    ∃ value, first = .ok value ∧ further value = .ok other := by
  cases first with
  | error failure => cases leads
  | ok value => exact ⟨value, rfl, leads⟩

namespace Settings

theorem Language.isEarly_of_ofPath {path : Path} {failure : Failure}
    (fails : Language.ofPath path = .error failure) : failure.isEarly = true := by
  rw [Language.ofPath] at fails
  split at fails <;> cases fails
  rfl

theorem Language.isEarly_of_parse {language : Language} {path : Path} {source : Text}
    {failure : Failure} (fails : language.parse path source = .error failure) :
    failure.isEarly = true := by
  cases language with
  | json | yaml =>
    rw [Language.parse] at fails
    split at fails
    · cases fails
    · split at fails <;> cases fails
      rfl

theorem isEarly_of_loadFile {files : FileSystem} {root path : Path} {failure : Failure}
    (fails : loadFile files root path = .error failure) : failure.isEarly = true := by
  rw [loadFile] at fails
  rcases error_of_bind fails with known | ⟨language, _, read⟩
  · exact Language.isEarly_of_ofPath known
  · split at read
    · cases read
      rfl
    · rcases error_of_bind read with parsed | ⟨tree, _, overlaid⟩
      · exact Language.isEarly_of_parse parsed
      · cases overlaid

end Settings

theorem Request.isEarly_of_load {request : Request} {files : FileSystem} {failure : Failure}
    (fails : request.load files = .error failure) : failure.isEarly = true := by
  rw [Request.load] at fails
  split at fails
  · exact Settings.isEarly_of_loadFile fails
  · rw [Settings.load] at fails
    split at fails
    · exact Settings.isEarly_of_loadFile fails
    · cases fails

theorem Registry.isEarly_of_resolve {registry : Registry} {name : Text} {failure : Failure}
    (fails : registry.resolve name = .error failure) : failure.isEarly = true := by
  rw [Registry.resolve] at fails
  split at fails <;> cases fails
  split <;> rfl

/-! ### What the settings report -/

theorem Settings.report_of_overlay {settings : Settings} {tree : Tree} {notice : Notice}
    (member : notice ∈ (settings.overlay tree).2) : notice = .namesIgnored := by
  rw [overlay] at member
  split at member
  · cases member
  · split at member
    · cases member
    · exact List.mem_singleton.mp member

theorem Settings.report_of_loadFile {files : FileSystem} {root path : Path} {settings : Settings}
    {reported : List Notice} (loaded : loadFile files root path = .ok (settings, reported))
    {notice : Notice} (member : notice ∈ reported) : notice = .namesIgnored := by
  rw [loadFile] at loaded
  obtain ⟨language, _, read⟩ := ok_of_bind loaded
  split at read
  · cases read
  · obtain ⟨tree, _, overlaid⟩ := ok_of_bind read
    have told : ((standardFor files root).overlay tree).2 = reported :=
      congrArg Prod.snd (Except.ok.inj overlaid)
    exact report_of_overlay (told ▸ member)

/-- Loading the settings reports that there is no file for them, or that names are ignored. -/
theorem Request.report_of_load {request : Request} {files : FileSystem} {settings : Settings}
    {reported : List Notice} (loaded : request.load files = .ok (settings, reported))
    {notice : Notice} (member : notice ∈ reported) :
    notice = .namesIgnored ∨ notice = .noSettingsFile := by
  rw [Request.load] at loaded
  split at loaded
  · exact Or.inl (Settings.report_of_loadFile loaded member)
  · rw [Settings.load] at loaded
    split at loaded
    · exact Or.inl (Settings.report_of_loadFile loaded member)
    · cases loaded
      exact Or.inr (List.mem_singleton.mp member)

/-! ### The ways to end -/

/-- There was nothing to compile, or the settings or the format failed. -/
def Compilation.EndedEarly (done : Compilation) : Prop :=
  done.outcome = .ok none ∨ ∃ failure, failure.isEarly = true ∧ done.outcome = .error failure

namespace Compilation.EndedEarly

variable {done : Compilation} (early : done.EndedEarly)

include early

theorem outcome_ne_some (document : Path) : done.outcome ≠ .ok (some document) := by
  intro written
  rcases early with nothing | ⟨failure, _, fails⟩
  · rw [nothing] at written
    cases written
  · rw [fails] at written
    cases written

theorem isEarly_of_outcome {failure : Failure} (fails : done.outcome = .error failure) :
    failure.isEarly = true := by
  rcases early with nothing | ⟨other, isEarly, ends⟩
  · rw [nothing] at fails
    cases fails
  · rw [ends] at fails
    cases fails
    exact isEarly

end Compilation.EndedEarly

/-- What the files of an order come to with given settings. -/
def Settings.passage (settings : Settings) (files : FileSystem) (root : Path) : Passage :=
  (Compiler.new settings.options settings.names).compileOrder files root

/-- What a document holds with given settings. -/
def Settings.content (settings : Settings) (files : FileSystem) (root : Path) : Bytes :=
  Text.encode (Text.unlines (settings.passage files root).written)

/-- The document's place is found in a tree with room for it, and the document is written: it
is emptied before the files are compiled. -/
structure Wrote (room : FileSystem) (root : Path) (settings : Settings) (document : Path)
    (reported : List Notice) (place : Location) (done : Compilation) : Prop where
  leads : room.locate document = .ok place
  free : room.at? place ≠ some .folder
  files : done.files =
    (room.put place (.file [])).put place
      (.file (settings.content (room.put place (.file [])) root))
  outcome : done.outcome =
    (settings.passage (room.put place (.file [])) root).outcome.map fun _ => some document
  notices : ∀ notice ∈ done.notices, notice ∈ reported ∨
    notice ∈ (settings.passage (room.put place (.file [])) root).notices ∨
    notice = .wrote document

theorem locate_of_place? {files : FileSystem} {path : Path} {place : Location}
    (found : files.place? path = some place) :
    files.locate path = .ok place ∧ files.at? place ≠ some .folder := by
  rw [FileSystem.place?] at found
  split at found
  · cases found
  · rename_i location leads
    split at found
    · cases found
    · rename_i content here
      cases found
      exact ⟨leads, by rw [here]; exact nofun⟩
    · rename_i here
      split at found
      · cases found
        exact ⟨leads, by rw [here]; exact nofun⟩
      · cases found

/-- The document's place is not found, or the document is written. -/
theorem writeDocument_cases (files : FileSystem) (root : Path) (settings : Settings)
    (document : Path) (reported : List Notice) :
    let room := (makeRoom files document).2
    let done := writeDocument files root settings document reported
    done = ⟨room, reported, .error (.outputNotCreated document)⟩ ∨
      ∃ place, Wrote room root settings document reported place done := by
  intro room done
  cases made : makeRoom files document with
  | mk success tree =>
    have same : room = tree := congrArg Prod.snd made
    have started : done = writeDocument files root settings document reported := rfl
    rw [writeDocument, made] at started
    cases success with
    | false => exact Or.inl (by rw [started, same])
    | true =>
      cases found : tree.place? document with
      | none =>
        simp only [found] at started
        exact Or.inl (by rw [started, same])
      | some place =>
        obtain ⟨leads, free⟩ := locate_of_place? found
        simp only [found] at started
        refine Or.inr ⟨place, ?_⟩
        rw [same]
        have passage : (Compiler.new settings.options settings.names).compileOrder
          (tree.put place (.file [])) root = settings.passage (tree.put place (.file [])) root := rfl
        rw [passage] at started
        cases ended : (settings.passage (tree.put place (.file [])) root).outcome with
        | error failure =>
          rw [ended] at started
          refine ⟨leads, free, by rw [started]; rfl, by rw [started, ended]; rfl, ?_⟩
          intro notice member
          rw [started] at member
          exact (List.mem_append.mp member).imp id Or.inl
        | ok count =>
          rw [ended] at started
          refine ⟨leads, free, by rw [started]; rfl, by rw [started, ended]; rfl, ?_⟩
          intro notice member
          rw [started] at member
          rcases List.mem_append.mp member with earlier | last
          · exact (List.mem_append.mp earlier).imp id Or.inl
          · exact Or.inr (Or.inr (List.mem_singleton.mp last))

/-- Nothing has been made, and only the settings are reported on; or there is room for the
document, and its place is not found, or it is written. -/
theorem compileProject_cases (files : FileSystem) (registry : Registry) (request : Request) :
    let done := compileProject files registry request
    (done.files = files ∧ done.EndedEarly ∧ ∀ notice ∈ done.notices, notice = .nothingToCompile ∨
      ∃ settings reported, request.load files = .ok (settings, reported) ∧ notice ∈ reported) ∨
    ∃ settings reported format, request.load files = .ok (settings, reported) ∧
      registry.resolve request.format = .ok format ∧
      let document := request.output.withExtension format.extension
      let room := (makeRoom files document).2
      done = ⟨room, reported, .error (.outputNotCreated document)⟩ ∨
        ∃ place, Wrote room request.root settings document reported place done := by
  intro done
  have started : done = compileProject files registry request := rfl
  rw [compileProject] at started
  cases loaded : request.load files with
  | error failure =>
    rw [loaded] at started
    rw [started]
    exact Or.inl ⟨rfl, Or.inr ⟨failure, Request.isEarly_of_load loaded, rfl⟩, nofun⟩
  | ok pair =>
    obtain ⟨settings, reported⟩ := pair
    rw [loaded] at started
    simp only at started
    split at started
    · rw [started]
      refine Or.inl ⟨rfl, Or.inl rfl, fun notice member => ?_⟩
      rcases List.mem_append.mp member with earlier | last
      · exact Or.inr ⟨settings, reported, rfl, earlier⟩
      · exact Or.inl (List.mem_singleton.mp last)
    · cases known : registry.resolve request.format with
      | error failure =>
        rw [known] at started
        rw [started]
        exact Or.inl ⟨rfl, Or.inr ⟨failure, Registry.isEarly_of_resolve known, rfl⟩,
          fun notice member => Or.inr ⟨settings, reported, rfl, member⟩⟩
      | ok format =>
        rw [known] at started
        refine Or.inr ⟨settings, reported, format, rfl, rfl, ?_⟩
        rw [started]
        exact writeDocument_cases files request.root settings _ reported

end Manuscript
