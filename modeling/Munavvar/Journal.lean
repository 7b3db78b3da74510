import Mathlib.Data.List.Basic

/-!
# Journals

A journal lists the transitions of one object. It tells a history when each
entry starts where the one before it ended; the end of the history is computed
from the entries.
-/

namespace Munavvar.Journal

variable {St E : Type} [DecidableEq St] {source : E → Option St} {target : E → St}

/-- Where a journal ends that starts at `x`; none if some entry starts elsewhere. -/
def follow (source : E → Option St) (target : E → St) : Option St → List E → Option (Option St)
  | x, [] => some x
  | x, e :: l => if source e = x then follow source target (some (target e)) l else none

theorem follow_nil (x : Option St) : follow source target x [] = some x := rfl

/-- A journal is continued by another one that starts where it ends. -/
theorem follow_append {x y : Option St} {l : List E} (h : follow source target x l = some y)
    (l' : List E) : follow source target x (l ++ l') = follow source target y l' := by
  induction l generalizing x with
  | nil =>
    cases h
    rfl
  | cons e l ih =>
    rw [follow] at h
    rw [List.cons_append, follow]
    split at h
    · next he =>
      rw [if_pos he]
      exact ih h
    · cases h

/-- One more entry that starts at the end of a journal. -/
theorem follow_concat {x y : Option St} {l : List E} (h : follow source target x l = some y)
    {e : E} (he : source e = y) : follow source target x (l ++ [e]) = some (some (target e)) := by
  rw [follow_append h, follow, if_pos he, follow]

end Munavvar.Journal
