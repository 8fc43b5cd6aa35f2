/-
This file is about the names that a registry lists, which are the names of its formats. A
listed name finds its format unless it was also given to stand for another name: a further
name goes before a format of the same name, whichever of the two came first, and hides it for
good or until it is given to stand for itself.
-/

import Manuscript.Proofs.Registry.Lookup

namespace Manuscript.Registry

/-- What is found has the name that was led to. -/
theorem name_of_get? {registry : Registry} {name : Text} {format : Format}
    (found : registry.get? name = some format) : format.name = registry.target name := by
  have named := List.find?_some found
  exact of_decide_eq_true named

/-- A format that has just been registered is found under its name unless the name leads
elsewhere. -/
theorem get?_register_self_iff (registry : Registry) (format : Format) :
    (registry.register format).get? format.name = some format ↔
      registry.target format.name = format.name := by
  constructor
  · exact fun found => (name_of_get? found).symm
  · intro own
    rw [get?_register, if_pos own.symm]

/-- A listed name finds the format that was registered last under it exactly if it does not lead
elsewhere. -/
theorem get?_eq_formatAfter?_iff {history : List Change} {name : Text}
    (listed : name ∈ (empty.changeAll history).names) :
    (empty.changeAll history).get? name = formatAfter? history name ↔
      targetAfter history name = name := by
  rw [mem_names_iff, own?_changeAll] at listed
  obtain ⟨format, last⟩ := Option.isSome_iff_exists.mp listed
  constructor
  · intro found
    rw [last] at found
    rw [← target_changeAll, ← name_of_get? found, (exists_of_formatAfter? last).2]
  · intro own
    rw [get?_changeAll, answer?, own]

/-- Whatever changes are made to an empty registry or to the formats of the program, every listed
name that was not last given to stand for another one can be chosen, and it finds the format
that was registered last under it, which has that name. A name that leads elsewhere does not
find that format. A format that is registered is found under its name right after that, again
unless the name leads elsewhere. -/
theorem own_name_found (start : Start) (changes : List Change) :
    let registry := start.registry.changeAll changes
    let history := start.changes ++ changes
    (∀ name ∈ registry.names,
      (targetAfter history name = name → ∃ format, registry.resolve name = .ok format ∧
        registry.get? name = some format ∧ formatAfter? history name = some format ∧
        format.name = name) ∧
      (targetAfter history name ≠ name → registry.get? name ≠ formatAfter? history name)) ∧
    ∀ format, (registry.register format).get? format.name = some format ↔
      targetAfter history format.name = format.name := by
  intro registry history
  have same : registry = empty.changeAll history := start.changeAll_eq changes
  rw [same]
  refine ⟨fun name listed => ⟨fun own => ?_, ?_⟩, fun format => ?_⟩
  · have answers := answersBy history
    obtain ⟨format, last⟩ := Option.isSome_iff_exists.mp
      ((isSome_formatAfter? history name).mpr ((answers.mem_names name).mp listed))
    have found : answer? history name = some format := by rw [answer?, own, last]
    exact ⟨format, (answers.resolve_ok name format).mpr found, (answers.get?_eq name).trans found,
      last, (exists_of_formatAfter? last).2⟩
  · exact mt (get?_eq_formatAfter?_iff listed).mp
  · rw [get?_register_self_iff, target_changeAll]

/-- A name that is given back to itself finds its format again. -/
theorem own_name_found_when_given_back :
    let changes : List Change :=
      [.addAlias "txt".toList "docx".toList, .addAlias "txt".toList "txt".toList]
    let registry := Start.standard.registry.changeAll changes
    "txt".toList ∈ registry.names ∧
      targetAfter (Start.standard.changes ++ changes) "txt".toList = "txt".toList ∧
      registry.resolve "txt".toList = .ok .plainText := by
  intro changes registry
  have listed : "txt".toList ∈ registry.names := (mem_names_iff _ _).mpr rfl
  have own : targetAfter (Start.standard.changes ++ changes) "txt".toList = "txt".toList := by
    decide
  obtain ⟨format, resolved, _, last, _⟩ :=
    ((own_name_found .standard changes).1 _ listed).1 own
  obtain rfl : Format.plainText = format := Option.some.inj last
  exact ⟨listed, own, resolved⟩

/-- A listed name that stands for another one need not find anything, and neither need the name
of a format that has just been registered. -/
theorem own_name_hidden :
    (¬ ∀ (start : Start) (changes : List Change),
      let registry := start.registry.changeAll changes
      ∀ name ∈ registry.names, ∃ format, registry.resolve name = .ok format) ∧
    ¬ ∀ (start : Start) (changes : List Change) (format : Format),
      ((start.registry.changeAll changes).register format).get? format.name = some format := by
  constructor
  · intro resolves
    obtain ⟨format, resolved⟩ := resolves .standard [.addAlias "txt".toList "docx".toList]
      "txt".toList ((mem_names_iff _ _).mpr rfl)
    cases resolved
  · intro found
    have none := found .empty [.addAlias "txt".toList "docx".toList] .plainText
    cases none

end Manuscript.Registry
