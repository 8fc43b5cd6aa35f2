/-
This file says which kind the lines of a file are, a block of lines at a time. A block is
a maximal run of lines that are not blank. A context decides line by line and looks back
no further than to the line before, but over a block this comes to one rule: the lines
with tags that the block begins with declare them, and from the first other line on
everything is prose, whatever it looks like. The scope is the one of the last line that
declares a tag, however many blank lines and lines of prose have come since.
-/

import Mathlib.Data.List.SplitBy
import Manuscript.Proofs.Context.Course

namespace Manuscript

/-! ### Runs of lines -/

/-- Whether two lines next to each other belong to one run: both are blank, or neither is. -/
def together (raw next : Text) : Bool :=
  raw.isBlank == next.isBlank

/-- The maximal runs of blank lines and of lines that are not blank. -/
def runs (lines : List Text) : List (List Text) :=
  lines.splitBy together

/-- Whether a tag is found in a line. -/
def holdsTag (raw : Text) : Bool :=
  (Tag.detect? raw).isSome

/-- The kinds of the lines of a block: tags as far as every line holds one, and prose from
there on. -/
def kindsOfBlock (block : List Text) : List LineKind :=
  ((block.takeWhile holdsTag).filterMap Tag.detect?).map .tagged ++
    (block.dropWhile holdsTag).map fun _ => .prose

/-- The kinds of the lines of a run. -/
def kindsOfRun (run : List Text) : List LineKind :=
  if run.all Text.isBlank then run.map fun _ => .blank else kindsOfBlock run

/-- The lines of a run are all blank, or none of them is. -/
theorem blank_or_solid {run : List Text} (chain : run.IsChain fun raw next => together raw next) :
    (∀ raw ∈ run, raw.isBlank = true) ∨ ∀ raw ∈ run, raw.isBlank = false := by
  cases run with
  | nil => exact Or.inl fun _ member => absurd member List.not_mem_nil
  | cons first rest =>
    have same : ∀ raw ∈ rest, first.isBlank = raw.isBlank := by
      have : Trans (fun raw next => together raw next = true)
          (fun raw next => together raw next = true) fun raw next => together raw next = true :=
        ⟨fun one other => by
          rw [together, beq_iff_eq] at one other ⊢
          exact one.trans other⟩
      intro raw member
      exact beq_iff_eq.mp ((List.pairwise_cons.mp (List.isChain_iff_pairwise.mp chain)).1 raw member)
    cases kind : first.isBlank with
    | true => exact Or.inl (List.forall_mem_cons.mpr ⟨kind, fun raw member => same raw member ▸ kind⟩)
    | false => exact Or.inr (List.forall_mem_cons.mpr ⟨kind, fun raw member => same raw member ▸ kind⟩)

namespace Context

/-! ### The kinds of the lines of a run -/

theorem kindsOf_blank (context : Context) {run : List Text}
    (blank : ∀ raw ∈ run, raw.isBlank = true) :
    context.kindsOf run = run.map fun _ => .blank := by
  induction run generalizing context with
  | nil => rfl
  | cons raw rest inductionHypothesis =>
    obtain ⟨here, behind⟩ := List.forall_mem_cons.mp blank
    rw [kindsOf, inductionHypothesis _ behind, line_advance, classify_of_isBlank _ here]
    rfl

/-- Within a block nothing but prose follows prose. -/
theorem kindsOf_behind_prose {context : Context} (prose : context.line = .prose)
    {block : List Text} (solid : ∀ raw ∈ block, raw.isBlank = false) :
    context.kindsOf block = block.map fun _ => .prose := by
  induction block generalizing context with
  | nil => rfl
  | cons raw rest inductionHypothesis =>
    obtain ⟨here, behind⟩ := List.forall_mem_cons.mp solid
    have kind : (context.advance raw).line = .prose := by
      rw [line_advance, classify_eq, if_neg (Bool.eq_false_iff.mp here), if_pos prose]
    rw [kindsOf, inductionHypothesis kind behind, kind]
    rfl

/-- A block that begins behind a blank line, or lines of a block behind a tag. -/
theorem kindsOf_block {context : Context} (apart : context.line ≠ .prose) {block : List Text}
    (solid : ∀ raw ∈ block, raw.isBlank = false) : context.kindsOf block = kindsOfBlock block := by
  induction block generalizing context with
  | nil => rfl
  | cons raw rest inductionHypothesis =>
    obtain ⟨here, behind⟩ := List.forall_mem_cons.mp solid
    cases found : Tag.detect? raw with
    | some tag =>
      have kind : (context.advance raw).line = .tagged tag := classify_of_detect? apart here found
      have holds : holdsTag raw = true := by rw [holdsTag, found, Option.isSome_some]
      have further : (context.advance raw).line ≠ .prose := kind ▸ LineKind.noConfusion
      rw [kindsOf, inductionHypothesis further behind, kind, kindsOfBlock, kindsOfBlock,
        List.takeWhile_cons_of_pos holds, List.dropWhile_cons_of_pos holds,
        List.filterMap_cons_some found]
      rfl
    | none =>
      have kind : (context.advance raw).line = .prose := by
        rw [line_advance, classify_eq, if_neg (Bool.eq_false_iff.mp here), if_neg apart, found]
        rfl
      have lacks : ¬holdsTag raw = true := by
        rw [holdsTag, found, Option.isSome_none]
        exact Bool.false_ne_true
      rw [kindsOf, kindsOf_behind_prose kind behind, kind, kindsOfBlock,
        List.takeWhile_cons_of_neg lacks, List.dropWhile_cons_of_neg lacks]
      rfl

/-- A run that follows prose only if its lines are blank goes by the rule. -/
theorem kindsOf_run {context : Context} {run : List Text} (filled : run ≠ [])
    (chain : run.IsChain fun raw next => together raw next)
    (begins : context.line = .prose → ∀ raw ∈ run, raw.isBlank = true) :
    context.kindsOf run = kindsOfRun run := by
  rcases blank_or_solid chain with blank | solid
  · rw [kindsOf_blank context blank, kindsOfRun, if_pos (List.all_eq_true.mpr blank)]
  · obtain ⟨raw, member⟩ := List.exists_mem_of_ne_nil run filled
    have someSolid : ¬∀ raw ∈ run, raw.isBlank = true := by
      intro blank
      exact Bool.false_ne_true ((solid raw member).symm.trans (blank raw member))
    have mixed : ¬run.all Text.isBlank = true := someSolid ∘ List.all_eq_true.mp
    rw [kindsOf_block (someSolid ∘ begins) solid, kindsOfRun, if_neg mixed]

/-- Where lines end with prose, the last of them is not blank. -/
theorem isBlank_getLast_of_prose {context : Context} {run : List Text} (filled : run ≠ [])
    (prose : (context.advanceAll run).line = .prose) : (run.getLast filled).isBlank = false := by
  cases blank : (run.getLast filled).isBlank with
  | false => rfl
  | true =>
    rw [← List.dropLast_append_getLast filled, advanceAll_concat, line_advance,
      classify_of_isBlank _ blank] at prose
    cases prose

/-- The run behind a run that ends with prose is one of blank lines. -/
theorem blank_behind_prose {context : Context} {run next : List Text} (filled : run ≠ [])
    (nextFilled : next ≠ []) (chain : next.IsChain fun raw next => together raw next)
    (apart : together (run.getLast filled) (next.head nextFilled) = false)
    (prose : (context.advanceAll run).line = .prose) : ∀ raw ∈ next, raw.isBlank = true := by
  rcases blank_or_solid chain with blank | solid
  · exact blank
  · rw [together, isBlank_getLast_of_prose filled prose, solid _ (List.head_mem nextFilled)] at apart
    cases apart

/-- Runs that follow one another go by the rule for each of them. -/
theorem kindsOf_flatten {context : Context} {runs : List (List Text)} (filled : [] ∉ runs)
    (chains : ∀ run ∈ runs, run.IsChain fun raw next => together raw next)
    (apart : runs.IsChain fun run next =>
      ∃ filled nextFilled, together (run.getLast filled) (next.head nextFilled) = false)
    (begins : context.line = .prose → ∀ run ∈ runs.head?, ∀ raw ∈ run, raw.isBlank = true) :
    context.kindsOf runs.flatten = runs.flatMap kindsOfRun := by
  induction runs generalizing context with
  | nil => rfl
  | cons run rest inductionHypothesis =>
    rw [List.mem_cons, not_or] at filled
    obtain ⟨chain, restChains⟩ := List.forall_mem_cons.mp chains
    obtain ⟨seam, restApart⟩ := List.isChain_cons.mp apart
    have here : context.kindsOf run = kindsOfRun run :=
      kindsOf_run (Ne.symm filled.1) chain fun prose => begins prose run rfl
    have behind : (context.advanceAll run).kindsOf rest.flatten = rest.flatMap kindsOfRun := by
      refine inductionHypothesis filled.2 restChains restApart fun prose next first => ?_
      obtain ⟨_, nextFilled, different⟩ := seam next first
      exact blank_behind_prose _ nextFilled (restChains next (List.mem_of_mem_head? first))
        different prose
    rw [List.flatten_cons, kindsOf_append, here, behind, List.flatMap_cons]

/-! ### The scope -/

theorem scope_advance (context : Context) (raw : Text) :
    (context.advance raw).scope =
      (context.advance raw).line.tag?.elim context.scope Scope.ofTag := by
  rw [line_advance]
  simp only [advance]
  cases classify context.line raw <;> rfl

/-- The scope is the one that began with the last tag. -/
theorem scope_advanceAll (context : Context) (lines : List Text) :
    (context.advanceAll lines).scope =
      ((context.kindsOf lines).filterMap LineKind.tag?).getLast?.elim context.scope
        Scope.ofTag := by
  induction lines using List.reverseRecOn with
  | nil => rfl
  | append_singleton lines raw inductionHypothesis =>
    rw [kindsOf_concat, advanceAll_concat, scope_advance, inductionHypothesis,
      List.filterMap_append]
    cases found : ((context.advanceAll lines).advance raw).line.tag? with
    | none => rw [List.filterMap_cons_none found, List.filterMap_nil, List.append_nil]; rfl
    | some tag =>
      rw [List.filterMap_cons_some found, List.filterMap_nil, List.getLast?_concat]
      rfl

end Context

/-- The scope behind lines of these kinds, by the last tag among them. -/
def Scope.behind (kinds : List LineKind) : Scope :=
  match (kinds.filterMap LineKind.tag?).getLast? with
  | some .chapter => .inChapter
  | some .sectionTag | some .sectionBreak => .inSection
  | some .title | some .author | none => .wholeDocument

namespace Beginning

theorem kinds_eq_flatMap (beginning : Beginning) (lines : List Text) :
    beginning.kinds lines = (runs lines).flatMap kindsOfRun := by
  have begins : beginning.context.line = .prose →
      ∀ run ∈ (runs lines).head?, ∀ raw ∈ run, raw.isBlank = true := by
    intro prose
    rw [line_context] at prose
    cases prose
  conv_lhs => rw [kinds, ← List.flatten_splitBy together lines]
  exact Context.kindsOf_flatten (List.nil_notMem_splitBy _ _)
    (fun run => List.isChain_of_mem_splitBy) (List.isChain_getLast_head_splitBy _ _) begins

theorem scope_after (beginning : Beginning) (lines : List Text) :
    (beginning.after lines).scope = .behind (beginning.kinds lines) := by
  have open_ : beginning.context.scope = .wholeDocument := by cases beginning <;> rfl
  rw [after, Context.scope_advanceAll, open_, Scope.behind, kinds]
  cases ((beginning.context.kindsOf lines).filterMap LineKind.tag?).getLast? with
  | none => rfl
  | some tag => cases tag <;> rfl

/-- The structure of a file follows its blocks. Each run of lines has the kinds that the rule
for runs gives it; at every line, the line before it is known by its kind, with a blank line in
front of the first; and the scope is the one of the last tag so far. -/
theorem follows_blocks (beginning : Beginning) (lines : List Text) :
    beginning.kinds lines = (runs lines).flatMap kindsOfRun ∧
      ∀ raw : Text,
        let here := beginning.after (lines ++ [raw])
        beginning.kinds (lines ++ [raw]) = beginning.kinds lines ++ [here.line] ∧
          here.previous = (beginning.kinds lines).getLast?.getD .blank ∧
          here.scope = .behind (beginning.kinds (lines ++ [raw])) := by
  refine ⟨kinds_eq_flatMap beginning lines, fun raw => ⟨kinds_concat _ _ _, ?_, scope_after _ _⟩⟩
  rw [previous_after_concat, line_after]

/-- A line that looks like a tag behind prose, tags behind a blank line and behind one another,
and a further line of that block that looks like one. -/
example : furtherFile.kinds (["Ink", "Chapter: One", "", "Title: Two", "---", "on", "Author: x"].map
      String.toList) =
    [.prose, .prose, .blank, .tagged .title, .tagged .sectionBreak, .prose, .prose] := by
  decide +kernel

end Beginning

end Manuscript
