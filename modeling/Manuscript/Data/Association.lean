/-
This file keeps values under keys. An association is a list of entries in which only the
first entry of a key counts; putting a value under a key takes out what was there before,
so an association that is built in this way has one entry for each key. Looking up a key
after that finds what was put there last.
-/

namespace Manuscript.Association

variable {Key Value : Type} [BEq Key]

/-- The entries with a value under a key. -/
def put (entries : List (Key × Value)) (key : Key) (value : Value) : List (Key × Value) :=
  (key, value) :: entries.filter (·.1 != key)

/-- Taking out one key leaves what is under the others. -/
theorem lookup_filter_ne [LawfulBEq Key] (entries : List (Key × Value)) (key other : Key)
    (different : other ≠ key) :
    (entries.filter (·.1 != key)).lookup other = entries.lookup other := by
  induction entries with
  | nil => rfl
  | cons entry rest inductionHypothesis =>
    obtain ⟨first, value⟩ := entry
    by_cases same : first = key
    · have apart : (other == first) = false := by simp [same, different]
      rw [List.filter_cons_of_neg (by simp [same]), inductionHypothesis, List.lookup_cons, apart]
    · rw [List.filter_cons_of_pos (by simp [same]), List.lookup_cons, List.lookup_cons,
        inductionHypothesis]

/-- A key that was put last has its value, and any other key what it had before. -/
theorem lookup_put [LawfulBEq Key] (entries : List (Key × Value)) (key other : Key)
    (value : Value) :
    (put entries key value).lookup other =
      if other == key then some value else entries.lookup other := by
  unfold put
  rw [List.lookup_cons]
  cases same : other == key with
  | true => rfl
  | false => exact lookup_filter_ne entries key other (by simpa using same)

end Manuscript.Association
