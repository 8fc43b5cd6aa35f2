/-
This file says what a registry answers after formats have been registered and further names
given in any order. Whatever is asked, the answer depends on the last entries alone: a name
leads in one step to what it was last given to stand for, or to itself, and finds the format
that was last registered there. So changes to different names may come in any order.
-/

import Mathlib.Data.List.Induction
import Mathlib.Data.List.Nodup
import Manuscript.Format.Registry
import Manuscript.Proofs.Path.Order

namespace Manuscript.Registry

/-! ### What can be done to a registry -/

/-- A change to a registry. -/
inductive Change where
  | register (format : Format)
  | addAlias (further name : Text)
  deriving DecidableEq, Repr

namespace Change

/-- The format that the change puts under a name. -/
def formatNamed? (name : Text) : Change → Option Format
  | register format => if format.name = name then some format else none
  | addAlias _ _ => none

/-- What the change lets a further name stand for. -/
def targetOf? (further : Text) : Change → Option Text
  | register _ => none
  | addAlias other name => if other = further then some name else none

theorem formatNamed?_eq_some_iff {name : Text} {change : Change} {format : Format} :
    change.formatNamed? name = some format ↔ change = register format ∧ format.name = name := by
  cases change with
  | addAlias => simp [formatNamed?]
  | register other =>
    rw [formatNamed?, Option.ite_none_right_eq_some, Option.some_inj, register.injEq]
    constructor
    · rintro ⟨named, rfl⟩
      exact ⟨rfl, named⟩
    · rintro ⟨rfl, named⟩
      exact ⟨named, rfl⟩

end Change

/-- Makes a change. -/
def change (registry : Registry) : Change → Registry
  | .register format => registry.register format
  | .addAlias further name => registry.addAlias further name

/-- Makes changes one after another. -/
def changeAll (registry : Registry) (changes : List Change) : Registry :=
  changes.foldl change registry

/-- What a registry can be at the beginning. -/
inductive Start where
  | empty
  /-- The formats of the program. -/
  | standard
  deriving DecidableEq, Repr

namespace Start

def registry : Start → Registry
  | empty => .empty
  | standard => .standard

/-- The changes that make it out of no formats. -/
def changes : Start → List Change
  | empty => []
  | standard => [.register .plainText, .addAlias "text".toList "txt".toList]

/-- Whatever a registry is at the beginning, all that is in it was put there by changes. -/
theorem changeAll_eq (start : Start) (further : List Change) :
    start.registry.changeAll further = Registry.empty.changeAll (start.changes ++ further) := by
  cases start <;> rfl

end Start

/-! ### The last changes -/

/-- The format that was registered last under a name. -/
def formatAfter? (history : List Change) (name : Text) : Option Format :=
  (history.filterMap (Change.formatNamed? name)).getLast?

/-- The name that another was last given to stand for, or that name itself. -/
def targetAfter (history : List Change) (name : Text) : Text :=
  ((history.filterMap (Change.targetOf? name)).getLast?).getD name

/-- The format that was registered last under the name that another one leads to. -/
def answer? (history : List Change) (name : Text) : Option Format :=
  formatAfter? history (targetAfter history name)

theorem getLast?_filterMap_concat {Value : Type} (part? : Change → Option Value)
    (history : List Change) (change : Change) :
    ((history ++ [change]).filterMap part?).getLast? =
      (part? change).or (history.filterMap part?).getLast? := by
  rw [List.filterMap_append, List.getLast?_append]
  cases found : part? change <;> simp [found]

theorem exists_of_formatAfter? {history : List Change} {name : Text} {format : Format}
    (last : formatAfter? history name = some format) :
    Change.register format ∈ history ∧ format.name = name := by
  obtain ⟨change, member, named⟩ := List.mem_filterMap.mp (List.mem_of_getLast? last)
  obtain ⟨rfl, same⟩ := Change.formatNamed?_eq_some_iff.mp named
  exact ⟨member, same⟩

theorem isSome_formatAfter? (history : List Change) (name : Text) :
    (formatAfter? history name).isSome = true ↔
      ∃ format, Change.register format ∈ history ∧ format.name = name := by
  constructor
  · intro found
    obtain ⟨format, last⟩ := Option.isSome_iff_exists.mp found
    exact ⟨format, exists_of_formatAfter? last⟩
  · rintro ⟨format, member, named⟩
    have put := Change.formatNamed?_eq_some_iff.mpr ⟨rfl, named⟩
    rw [formatAfter?, List.getLast?_isSome]
    exact List.ne_nil_of_mem (List.mem_filterMap.mpr ⟨_, member, put⟩)

/-! ### One change -/

variable (registry : Registry) (made : Change) (name : Text)

/-- The format that has this name. -/
def own? : Option Format :=
  registry.formats.find? (·.name = name)

theorem get?_eq_own? : registry.get? name = registry.own? (registry.target name) := rfl

theorem target_change :
    (registry.change made).target name = (made.targetOf? name).getD (registry.target name) := by
  cases made with
  | register format => rfl
  | addAlias further other =>
    rw [change, target_addAlias, Change.targetOf?]
    by_cases same : further = name
    · rw [if_pos same.symm, if_pos same, Option.getD_some]
    · rw [if_neg (Ne.symm same), if_neg same, Option.getD_none]

theorem own?_change :
    (registry.change made).own? name = (made.formatNamed? name).or (registry.own? name) := by
  cases made with
  | addAlias further other => rfl
  | register format =>
    -- Without further names a name leads to itself, so its own format is what it finds.
    have found := get?_register ⟨registry.formats, []⟩ format name
    rw [Change.formatNamed?]
    by_cases same : format.name = name
    · rw [if_pos same]
      exact found.trans (if_pos same)
    · rw [if_neg same]
      exact found.trans (if_neg same)

theorem nodup_change (distinct : (registry.formats.map (·.name)).Nodup) :
    ((registry.change made).formats.map (·.name)).Nodup := by
  cases made with
  | addAlias further other => exact distinct
  | register format =>
    refine List.nodup_cons.mpr ⟨?_, distinct.sublist (List.filter_sublist.map _)⟩
    intro member
    obtain ⟨other, kept, same⟩ := List.mem_map.mp member
    exact of_decide_eq_true (List.mem_filter.mp kept).2 same

/-! ### A row of changes -/

section History

variable (history : List Change)

theorem changeAll_concat :
    registry.changeAll (history ++ [made]) = (registry.changeAll history).change made :=
  List.foldl_concat ..

theorem target_changeAll :
    (empty.changeAll history).target name = targetAfter history name := by
  induction history using List.reverseRecOn with
  | nil => rfl
  | append_singleton history made inductionHypothesis =>
    rw [changeAll_concat, target_change, inductionHypothesis, targetAfter, targetAfter,
      getLast?_filterMap_concat]
    cases made.targetOf? name <;> rfl

theorem own?_changeAll :
    (empty.changeAll history).own? name = formatAfter? history name := by
  induction history using List.reverseRecOn with
  | nil => rfl
  | append_singleton history made inductionHypothesis =>
    rw [changeAll_concat, own?_change, inductionHypothesis, formatAfter?, formatAfter?,
      getLast?_filterMap_concat]

theorem get?_changeAll : (empty.changeAll history).get? name = answer? history name := by
  rw [get?_eq_own?, target_changeAll, own?_changeAll, answer?]

theorem nodup_changeAll : ((empty.changeAll history).formats.map (·.name)).Nodup := by
  induction history using List.reverseRecOn with
  | nil => exact List.nodup_nil
  | append_singleton history made inductionHypothesis =>
    rw [changeAll_concat]
    exact nodup_change _ made inductionHypothesis

end History

/-! ### The names of the formats -/

theorem perm_names : registry.names.Perm (registry.formats.map (·.name)) :=
  List.mergeSort_perm _ _

theorem pairwise_names :
    registry.names.Pairwise fun first second => Text.before first second = true :=
  Text.isOrder_before.pairwise_mergeSort id _

theorem mem_names_iff : name ∈ registry.names ↔ (registry.own? name).isSome = true := by
  rw [registry.perm_names.mem_iff, List.mem_map, own?, List.find?_isSome]
  simp only [decide_eq_true_iff]

/-! ### Answers -/

/-- Everything that a registry can be asked is answered by the last changes of its history. -/
structure AnswersBy (registry : Registry) (history : List Change) : Prop where
  get?_eq (name : Text) : registry.get? name = answer? history name
  has_eq (name : Text) : registry.has name = (answer? history name).isSome
  resolve_ok (name : Text) (format : Format) :
    registry.resolve name = .ok format ↔ answer? history name = some format
  /-- It is the name that was asked for that counts as planned or not. -/
  resolve_error (name : Text) (failure : Failure) :
    registry.resolve name = .error failure ↔ answer? history name = none ∧
      failure = if name ∈ Format.planned then .plannedFormat name else .unknownFormat name
  names_ordered :
    registry.names.Pairwise fun first second => Text.before first second = true
  names_distinct : registry.names.Nodup
  mem_names (name : Text) :
    name ∈ registry.names ↔ ∃ format, Change.register format ∈ history ∧ format.name = name

/-- Two registries are not told apart by anything that they can be asked. -/
structure SameAnswers (registry other : Registry) : Prop where
  get?_eq (name : Text) : registry.get? name = other.get? name
  has_eq (name : Text) : registry.has name = other.has name
  resolve_eq (name : Text) : registry.resolve name = other.resolve name
  names_eq : registry.names = other.names

/-- The same formats are registered under each name in the same order, and each further name is
given the same names to stand for in the same order. Changes to different names may come in any
order. -/
structure SameOrder (changes others : List Change) : Prop where
  formats (name : Text) :
    changes.filterMap (Change.formatNamed? name) = others.filterMap (Change.formatNamed? name)
  targets (further : Text) :
    changes.filterMap (Change.targetOf? further) = others.filterMap (Change.targetOf? further)

theorem resolve_eq :
    registry.resolve name =
      match registry.get? name with
      | some format => .ok format
      | none =>
        .error (if name ∈ Format.planned then .plannedFormat name else .unknownFormat name) := by
  rw [resolve]
  cases registry.get? name with
  | some format => rfl
  | none => simp only [List.contains_iff_mem]

theorem answersBy (history : List Change) : (empty.changeAll history).AnswersBy history where
  get?_eq name := get?_changeAll name history
  has_eq name := by rw [has, get?_changeAll]
  resolve_ok name format := by
    rw [resolve_eq, get?_changeAll]
    cases answer? history name <;> simp
  resolve_error name failure := by
    rw [resolve_eq, get?_changeAll]
    cases answer? history name with
    | some format => simp
    | none => simp [eq_comm]
  names_ordered := pairwise_names _
  names_distinct := (perm_names _).nodup_iff.mpr (nodup_changeAll history)
  mem_names name := by rw [mem_names_iff, own?_changeAll, isSome_formatAfter?]

theorem SameOrder.append {changes others : List Change} (same : SameOrder changes others)
    (front : List Change) : SameOrder (front ++ changes) (front ++ others) where
  formats name := by rw [List.filterMap_append, List.filterMap_append, same.formats]
  targets further := by rw [List.filterMap_append, List.filterMap_append, same.targets]

theorem SameOrder.sameAnswers {history row : List Change} (same : SameOrder history row) :
    (empty.changeAll history).SameAnswers (empty.changeAll row) := by
  have found (name : Text) :
      (empty.changeAll history).get? name = (empty.changeAll row).get? name := by
    rw [get?_changeAll, get?_changeAll, answer?, answer?, formatAfter?, formatAfter?, targetAfter,
      targetAfter, same.targets, same.formats]
  have names : (empty.changeAll history).names = (empty.changeAll row).names := by
    refine List.Perm.eq_of_pairwise (fun _ _ _ _ => Text.isOrder_before.antisymm)
      (pairwise_names _) (pairwise_names _) ?_
    rw [List.perm_ext_iff_of_nodup (answersBy history).names_distinct
      (answersBy row).names_distinct]
    intro name
    rw [mem_names_iff, mem_names_iff, own?_changeAll, own?_changeAll, formatAfter?, formatAfter?,
      same.formats]
  exact ⟨found, fun name => by rw [has, has, found],
    fun name => by rw [resolve, resolve, found], names⟩

/-- Whatever changes are made to an empty registry or to the formats of the program, all answers
are those of the last changes: a name is followed one step, to what it was last given to stand
for, and finds the format that was last registered there. Changes that keep their order wherever
they are about the same name may be made in any order. -/
theorem answers_by_last_changes (start : Start) (changes : List Change) :
    (start.registry.changeAll changes).AnswersBy (start.changes ++ changes) ∧
      ∀ others, SameOrder changes others →
        (start.registry.changeAll changes).SameAnswers (start.registry.changeAll others) := by
  simp only [Start.changeAll_eq]
  exact ⟨answersBy _, fun others same => (same.append _).sameAnswers⟩

/-- A further name is given before there is a format for it to find, and a name that leads to a
further name is not followed on. Where the changes stand among each other makes no difference. -/
theorem answers_by_last_changes_in_another_order :
    let older : Format := ⟨"md".toList, "mdx".toList, []⟩
    let newer : Format := ⟨"md".toList, "md".toList, []⟩
    let changes : List Change := [.addAlias "m".toList "md".toList, .register older,
      .register newer, .addAlias "txt".toList "m".toList]
    let others : List Change := [.addAlias "txt".toList "m".toList, .register older,
      .addAlias "m".toList "md".toList, .register newer]
    let registry := Start.standard.registry.changeAll changes
    SameOrder changes others ∧ registry.SameAnswers (Start.standard.registry.changeAll others) ∧
      registry.get? "m".toList = some newer ∧
      registry.resolve "txt".toList = .error (.unknownFormat "txt".toList) ∧
      "txt".toList ∈ registry.names := by
  intro older newer changes others registry
  have same : SameOrder changes others := by
    refine ⟨fun name => rfl, fun further => ?_⟩
    by_cases first : "m".toList = further
    · subst first
      rfl
    · simp only [changes, others, List.filterMap_cons, Change.targetOf?, if_neg first]
  obtain ⟨answers, reordered⟩ := answers_by_last_changes .standard changes
  refine ⟨same, reordered others same, ?_, ?_, ?_⟩
  · rw [answers.get?_eq]
    rfl
  · rw [answers.resolve_error]
    exact ⟨rfl, rfl⟩
  · rw [answers.mem_names]
    exact ⟨.plainText, by decide, rfl⟩

end Manuscript.Registry
