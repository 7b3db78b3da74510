import Mathlib.Data.List.Sort
import Mathlib.Data.List.Basic

/-!
# Stable sorting

Sorting by a key leaves the entries of one key in the order in which they were.
So two lists are sorted alike exactly if they agree on the entries of each key.
-/

namespace Munavvar.StableSort

variable {α κ : Type} [LinearOrder κ] {key : α → κ}

/-- Whether an entry may stand before another one. -/
def before (key : α → κ) (x y : α) : Bool := key x ≤ key y

/-- The entries of a key. -/
def run (key : α → κ) (k : κ) (l : List α) : List α := l.filter fun x => key x = k

theorem before_trans (x y z : α) (hxy : before key x y = true) (hyz : before key y z = true) :
    before key x z = true := by
  unfold before at *
  rw [decide_eq_true_eq] at *
  exact hxy.trans hyz

theorem before_total (x y : α) : (before key x y || before key y x) = true := by
  unfold before
  rw [Bool.or_eq_true, decide_eq_true_eq, decide_eq_true_eq]
  exact le_total _ _

theorem pairwise_run (k : κ) (l : List α) :
    (run key k l).Pairwise fun x y => before key x y = true := by
  rw [List.pairwise_iff_forall_sublist]
  intro x y hxy
  have hx := (List.mem_filter.mp (hxy.subset List.mem_cons_self)).2
  have hy := (List.mem_filter.mp (hxy.subset (List.mem_cons_of_mem x List.mem_cons_self))).2
  rw [decide_eq_true_eq] at hx hy
  unfold before
  rw [hx, hy, decide_eq_true_eq]

/-- The entries of a key keep their order. -/
theorem run_mergeSort (k : κ) (l : List α) : run key k (l.mergeSort (before key)) = run key k l := by
  have hsub : (run key k l).Sublist (l.mergeSort (before key)) :=
    List.sublist_mergeSort before_trans before_total (pairwise_run k l) List.filter_sublist
  have hrun : (run key k l).Sublist (run key k (l.mergeSort (before key))) := by
    have hfiltered := hsub.filter fun x => key x = k
    rw [show (run key k l).filter (fun x => key x = k) = run key k l by
      unfold run
      rw [List.filter_filter]
      simp only [Bool.and_self]] at hfiltered
    exact hfiltered
  have hperm : (run key k (l.mergeSort (before key))).Perm (run key k l) :=
    (List.mergeSort_perm l (before key)).filter _
  exact (hrun.eq_of_length hperm.length_eq.symm).symm

/-- A sorted list is told by the entries of each key. -/
theorem eq_of_run_eq {l l' : List α} (h : l.Pairwise fun x y => before key x y = true)
    (h' : l'.Pairwise fun x y => before key x y = true) (hrun : ∀ k, run key k l = run key k l') :
    l = l' := by
  induction l generalizing l' with
  | nil =>
    cases l' with
    | nil => rfl
    | cons y l' =>
      have hy := hrun (key y)
      simp [run] at hy
  | cons x l ih =>
    cases l' with
    | nil =>
      have hx := hrun (key x)
      simp [run] at hx
    | cons y l' =>
      rw [List.pairwise_cons] at h h'
      have hmem : ∀ z, z ∈ x :: l ↔ z ∈ y :: l' := by
        intro z
        have hz := congrArg (z ∈ ·) (hrun (key z))
        simpa [run] using hz
      -- Neither head is after the other one, so both begin the run of one key.
      have hkey : key x = key y := by
        apply le_antisymm
        · rcases List.mem_cons.mp ((hmem y).mpr List.mem_cons_self) with hy | hy
          · rw [hy]
          · exact of_decide_eq_true (h.1 y hy)
        · rcases List.mem_cons.mp ((hmem x).mp List.mem_cons_self) with hx | hx
          · rw [hx]
          · exact of_decide_eq_true (h'.1 x hx)
      have hhead := hrun (key x)
      rw [run, run, List.filter_cons_of_pos (by simp), List.filter_cons_of_pos (by simp [hkey])]
        at hhead
      have hxy : x = y := List.head_eq_of_cons_eq hhead
      subst hxy
      have htail : l = l' := by
        apply ih h.2 h'.2
        intro k
        have hk := hrun k
        simp only [run, List.filter_cons] at hk ⊢
        by_cases hxk : key x = k
        · simpa [hxk] using hk
        · simpa [hxk] using hk
      rw [htail]

/-- Lists are sorted alike exactly if they agree on the entries of each key. -/
theorem mergeSort_eq_iff (l l' : List α) :
    l.mergeSort (before key) = l'.mergeSort (before key) ↔ ∀ k, run key k l = run key k l' := by
  constructor
  · intro h k
    rw [← run_mergeSort, h, run_mergeSort]
  · intro h
    apply eq_of_run_eq (List.pairwise_mergeSort before_trans before_total l)
      (List.pairwise_mergeSort before_trans before_total l')
    intro k
    rw [run_mergeSort, run_mergeSort, h k]

end Munavvar.StableSort
