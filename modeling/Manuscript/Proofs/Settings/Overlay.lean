/-
This file proves that of several files laid over settings one after the other, the last one
with a valid value for a setting decides it, and that a setting for which no file has one
stays as it was. The settings do not meddle with each other: what becomes of one is decided
by what stands at its own place in each file. So a file that is laid over settings again
changes nothing.
-/

import Mathlib.Data.List.Induction
import Manuscript.Proofs.Settings.Choice

namespace Manuscript

/-! ### One file -/

/-- A file sets each setting that it chooses something for and leaves the others. -/
theorem Setting.ofSettings_overlay (setting : Setting) (settings : Settings) (tree : Tree) :
    setting.ofSettings (settings.overlay tree).1 =
      (setting.choice? tree).getD (setting.ofSettings settings) := by
  have options :
      (settings.overlay tree).1.options =
        settings.options.overlay (tree.get? "compile".toList) := by
    simp only [Settings.overlay]
    split
    · rfl
    · split <;> rfl
  cases setting with
  | order | spacing | mode | removeBlankLines | indent | titleIndent | chapterIndent
  | sectionIndent =>
    simp only [ofSettings, options, Options.overlay, FirstIndent.overlay, choice?, read?, keys,
      Tree.find?, Tree.under?, Option.bind_assoc, Option.bind_some]
  | names =>
    simp only [ofSettings, Settings.overlay, choice?, read?, keys, Tree.find?, Option.bind_fun_some]
    cases tree.get? "names".toList with
    | none => rfl
    | some value =>
      simp only [Option.bind_some]
      cases value.asNames? <;> rfl

/-- A setting is decided by what stands at its own place. -/
theorem Setting.choice?_congr {setting : Setting} {tree other : Tree}
    (same : ∀ value, tree.Holds setting.keys value ↔ other.Holds setting.keys value) :
    setting.choice? tree = setting.choice? other := by
  have found : tree.find? setting.keys = other.find? setting.keys :=
    Option.ext fun value => by
      simp only [Tree.find?_eq_some_iff, same]
  rw [choice?, choice?, found]

/-- Nothing is found behind what is not an object. -/
theorem Tree.find?_append_eq_none {front back : List String} {tree container : Tree}
    (there : tree.Holds front container) (further : back ≠ [])
    (bare : ∀ entries, container ≠ .object entries) : tree.find? (front ++ back) = none := by
  induction there with
  | here value =>
    obtain ⟨key, keys, rfl⟩ := List.exists_cons_of_ne_nil further
    have absent : value.get? key.toList = none := by
      cases value with
      | object entries => exact absurd rfl (bare entries)
      | null | bool | int | float | string | array => rfl
    simp only [List.nil_append, find?, absent, Option.bind_none]
  | under found behind inductionHypothesis =>
    simp only [List.cons_append, find?, get?, found, Option.bind_some, inductionHypothesis bare]

/-! ### A row of files -/

/-- The settings with those of a row of files laid over them, one after the other. -/
def Settings.overlayAll (settings : Settings) (trees : List Tree) : Settings :=
  trees.foldl (fun settings tree => (settings.overlay tree).1) settings

theorem Settings.overlayAll_append (settings : Settings) (front back : List Tree) :
    settings.overlayAll (front ++ back) = (settings.overlayAll front).overlayAll back :=
  List.foldl_append

theorem Settings.overlayAll_cons (settings : Settings) (tree : Tree) (trees : List Tree) :
    settings.overlayAll (tree :: trees) = (settings.overlay tree).1.overlayAll trees := rfl

theorem Settings.overlayAll_concat (settings : Settings) (trees : List Tree) (tree : Tree) :
    settings.overlayAll (trees ++ [tree]) = ((settings.overlayAll trees).overlay tree).1 :=
  settings.overlayAll_append trees [tree]

namespace Setting

/-- No file of a row chooses anything for a setting. -/
def Unchosen (setting : Setting) (trees : List Tree) : Prop :=
  ∀ tree ∈ trees, ∀ choice, ¬ setting.ChosenBy tree choice

/-- What a setting is after a row of files: what the last file says that chooses something
for it, or what it was before if there is no such file. -/
inductive LastChosen (setting : Setting) (before : setting.Choice) :
    List Tree → setting.Choice → Prop where
  | kept {trees : List Tree} (nowhere : setting.Unchosen trees) :
      LastChosen setting before trees before
  | chosen {front back : List Tree} {tree : Tree} {choice : setting.Choice}
      (here : setting.ChosenBy tree choice) (later : setting.Unchosen back) :
      LastChosen setting before (front ++ tree :: back) choice

variable {setting : Setting} {before value : setting.Choice} {trees : List Tree} {tree : Tree}

theorem Unchosen.concat (nowhere : setting.Unchosen trees)
    (silent : ∀ choice, ¬ setting.ChosenBy tree choice) : setting.Unchosen (trees ++ [tree]) := by
  intro other member
  rcases List.mem_append.mp member with inFront | last
  · exact nowhere other inFront
  · obtain rfl := List.mem_singleton.mp last
    exact silent

/-- One more file decides the setting if it chooses something for it, and leaves it otherwise. -/
theorem LastChosen.concat (last : setting.LastChosen before trees value) :
    setting.LastChosen before (trees ++ [tree]) ((setting.choice? tree).getD value) := by
  cases chosen : setting.choice? tree with
  | some choice =>
    exact .chosen (choice?_eq_some_iff.mp chosen) fun _ member => absurd member List.not_mem_nil
  | none =>
    have silent := choice?_eq_none_iff.mp chosen
    cases last with
    | kept nowhere => exact .kept (nowhere.concat silent)
    | chosen here later =>
      rw [List.append_assoc, List.cons_append]
      exact .chosen here (later.concat silent)

theorem lastChosen_overlayAll (setting : Setting) (settings : Settings) (trees : List Tree) :
    setting.LastChosen (setting.ofSettings settings) trees
      (setting.ofSettings (settings.overlayAll trees)) := by
  induction trees using List.reverseRecOn with
  | nil => exact .kept fun _ member => absurd member List.not_mem_nil
  | append_singleton trees tree inductionHypothesis =>
    rw [Settings.overlayAll_concat, ofSettings_overlay]
    exact inductionHypothesis.concat

/-- Files that choose nothing for a setting leave it. -/
theorem Unchosen.ofSettings_overlayAll (nowhere : setting.Unchosen trees) (settings : Settings) :
    setting.ofSettings (settings.overlayAll trees) = setting.ofSettings settings := by
  induction trees generalizing settings with
  | nil => rfl
  | cons tree trees inductionHypothesis =>
    obtain ⟨silent, others⟩ := List.forall_mem_cons.mp nowhere
    rw [Settings.overlayAll_cons, inductionHypothesis others, ofSettings_overlay,
      choice?_eq_none_iff.mpr silent, Option.getD_none]

/-- There is one value only that the last choice leads to. -/
theorem LastChosen.eq_ofSettings {settings : Settings}
    (last : setting.LastChosen (setting.ofSettings settings) trees value) :
    setting.ofSettings (settings.overlayAll trees) = value := by
  cases last with
  | kept nowhere => exact nowhere.ofSettings_overlayAll settings
  | chosen here later =>
    rw [Settings.overlayAll_append, Settings.overlayAll_cons, later.ofSettings_overlayAll,
      ofSettings_overlay, choice?_eq_some_iff.mpr here, Option.getD_some]

end Setting

theorem Settings.overlay_overlay (settings : Settings) (tree : Tree) :
    ((settings.overlay tree).1.overlay tree).1 = (settings.overlay tree).1 :=
  Setting.ext_ofSettings fun setting => by
    simp only [Setting.ofSettings_overlay]
    cases setting.choice? tree <;> rfl

namespace Settings

/-- A file with options and without names. -/
def fileOf (options : List (String × Tree)) : Tree :=
  .object [("compile".toList, .object (options.map fun option => (option.1.toList, option.2)))]

/-- After any row of files, each setting has the value that the last file with a valid value
for it gives, or the one it had if there is no such file. A file is without one where the way
to the place of the setting leads through what is not an object. Two files with the same value
at that place, or both without one, do the same to the setting, whatever else they hold; and a
file that is laid over settings twice does no more than once. -/
theorem overlayAll_decided_by_last :
    (∀ (settings : Settings) (trees : List Tree) (setting : Setting) (value : setting.Choice),
      setting.ofSettings (settings.overlayAll trees) = value ↔
        setting.LastChosen (setting.ofSettings settings) trees value) ∧
    (∀ (tree container : Tree) (setting : Setting) (front back : List String),
      setting.keys = front ++ back → back ≠ [] → tree.Holds front container →
        (∀ entries, container ≠ .object entries) → setting.Unchosen [tree]) ∧
    (∀ (settings : Settings) (tree other : Tree) (setting : Setting),
      (∀ value, tree.Holds setting.keys value ↔ other.Holds setting.keys value) →
        setting.ofSettings (settings.overlay tree).1 =
          setting.ofSettings (settings.overlay other).1) ∧
    (∀ (settings : Settings) (tree : Tree),
      ((settings.overlay tree).1.overlay tree).1 = (settings.overlay tree).1) := by
  refine ⟨fun settings trees setting value => ?_, ?_, ?_, overlay_overlay⟩
  · constructor
    · rintro rfl
      exact setting.lastChosen_overlayAll settings trees
    · exact Setting.LastChosen.eq_ofSettings
  · intro tree container setting front back keys further there bare other member
    obtain rfl := List.mem_singleton.mp member
    have absent : other.find? setting.keys = none := by
      rw [keys]
      exact Tree.find?_append_eq_none there further bare
    apply Setting.choice?_eq_none_iff.mp
    rw [Setting.choice?, absent, Option.bind_none]
  · intro settings tree other setting same
    rw [Setting.ofSettings_overlay, Setting.ofSettings_overlay, Setting.choice?_congr same]

example :
    (Settings.standard.overlayAll
      [fileOf [("spacing", .string "DOUBLE".toList)],
        fileOf [("spacing", .string "triple".toList)]]).options.spacing = .double := by
  decide +kernel

/-- A number in the place of the options chooses no spacing, and a number in the place of the
spacing leaves the order of files alone. -/
theorem overlayAll_decided_by_last_damaged_files :
    Setting.spacing.Unchosen [.object [("compile".toList, .int 5)]] ∧
      (Settings.standard.overlay
        (fileOf [("spacing", .int 5), ("order", .ofTexts ["one".toList])])).1.options.order =
      (Settings.standard.overlay (fileOf [("order", .ofTexts ["one".toList])])).1.options.order :=
  ⟨overlayAll_decided_by_last.2.1 _ (.int 5) .spacing ["compile"] ["spacing"] rfl
      (List.cons_ne_nil _ _) (.under rfl (.here _)) (fun _ same => by cases same),
    overlayAll_decided_by_last.2.2.1 .standard _ _ .order fun value => by
      rw [← Tree.find?_eq_some_iff, ← Tree.find?_eq_some_iff]
      exact Iff.rfl⟩

/-- A word for an indent is recognised by its letters alone, so that the values which give an
indent are more than the two words in small letters and the sixteen widths. -/
theorem overlay_indent_in_capitals :
    ¬ ∀ (settings : Settings) (tree : Tree),
      (∀ value, tree.Holds Setting.indent.keys value →
        value ≠ .string "tab".toList ∧ value ≠ .string "spaces".toList ∧
          ∀ count : Nat, 1 ≤ count → count ≤ 16 → value ≠ .int count) →
      (settings.overlay tree).1.options.indent = settings.options.indent := by
  intro stays
  have capitals := stays .standard
    (fileOf [("paragraph", .object [("indent".toList, .string "SPACES".toList)])])
    (fun value there => by
      obtain rfl : Tree.string "SPACES".toList = value :=
        Option.some.inj (Tree.find?_eq_some_iff.mpr there)
      refine ⟨?_, ?_, fun count _ _ same => by cases same⟩ <;>
        exact fun same => absurd (Tree.string.inj same) (by decide))
  exact absurd capitals (by decide)

end Settings

end Manuscript
