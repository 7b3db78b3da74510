import Mathlib.Algebra.BigOperators.Group.List.Basic
import Mathlib.Data.List.Nodup
import Mathlib.Data.Nat.Cast.Basic
import Mathlib.Tactic.Abel

/-!
# Aggregates over joined rows

Two ways to aggregate a selection of rows. Grouping splits the selection by a
key and its groups add up to the whole. An unjoined product pairs every
selected row with every row of a table; an aggregate of the table's columns
over it counts the whole table once for each selected row.
-/

namespace Munavvar.Aggregation

variable {α β K : Type}

/-- Every row of the left side with every row of the right side. -/
def crossJoin (left : List α) (right : List β) : List (α × β) :=
  left.flatMap fun a => right.map fun b => (a, b)

/-- An aggregate of the right side's columns repeats for each row of the left side. -/
theorem sum_crossJoin (left : List α) (right : List β) (g : β → ℤ) :
    ((crossJoin left right).map fun r => g r.2).sum = left.length * (right.map g).sum := by
  induction left with
  | nil => simp only [crossJoin, List.flatMap_nil, List.map_nil, List.sum_nil, List.length_nil,
      Nat.cast_zero, zero_mul]
  | cons a left ih =>
    have hcons : crossJoin (a :: left) right = right.map (fun b => (a, b)) ++ crossJoin left right :=
      List.flatMap_cons
    have hrow : (right.map fun b => (a, b)).map (fun r => g r.2) = right.map g := by
      rw [List.map_map]
      rfl
    rw [hcons, List.map_append, List.sum_append, ih, hrow, List.length_cons, Nat.cast_succ,
      add_mul, one_mul, add_comm]

/-- So does a count of the right side's rows. -/
theorem length_filter_crossJoin (left : List α) (right : List β) (p : β → Bool) :
    ((crossJoin left right).filter fun r => p r.2).length =
      left.length * (right.filter p).length := by
  induction left with
  | nil => simp only [crossJoin, List.flatMap_nil, List.filter_nil, List.length_nil, zero_mul]
  | cons a left ih =>
    have hcons : crossJoin (a :: left) right = right.map (fun b => (a, b)) ++ crossJoin left right :=
      List.flatMap_cons
    have hrow : ((right.map fun b => (a, b)).filter fun r => p r.2).length =
        (right.filter p).length := by
      rw [List.filter_map, List.length_map]
      rfl
    rw [hcons, List.filter_append, List.length_append, ih, hrow, List.length_cons, Nat.succ_mul,
      add_comm]

/-- Without a condition the product's rows are counted. -/
theorem length_crossJoin (left : List α) (right : List β) :
    (crossJoin left right).length = left.length * right.length := by
  have h := length_filter_crossJoin left right fun _ => true
  rwa [List.filter_true, List.filter_true] at h

section Product

variable {γ : Type}

/-- A column of a join is part of the column of the table it was read from. -/
theorem joined_sublist {join : α → Option β} {row : β → γ} {column : α → γ}
    (hrow : ∀ a b, join a = some b → row b = column a) (l : List α) :
    ((l.filterMap join).map row).Sublist (l.map column) := by
  induction l with
  | nil => exact List.Sublist.refl _
  | cons a l ih =>
    cases ha : join a with
    | none =>
      rw [List.filterMap_cons_none ha, List.map_cons]
      exact ih.cons _
    | some b =>
      rw [List.filterMap_cons_some ha, List.map_cons, List.map_cons, hrow a b ha]
      exact ih.cons_cons _

/-- Counting the whole table once for each selected row gives the selection's
count only if nothing is selected or the table has a single row. -/
theorem length_mul_length_eq_iff {part whole : List γ} :
    part.length * whole.length = part.length ↔ part = [] ∨ whole.length = 1 := by
  constructor
  · intro h
    rcases Nat.eq_zero_or_pos part.length with hzero | hpos
    · exact .inl (List.eq_nil_of_length_eq_zero hzero)
    · exact .inr (Nat.eq_of_mul_eq_mul_left hpos (by rw [h, Nat.mul_one]))
  · rintro (rfl | h)
    · exact Nat.zero_mul _
    · rw [h, Nat.mul_one]

/-- In these cases the selection is empty or it is the whole table. -/
theorem empty_or_whole {part whole : List γ} (hsub : part.Sublist whole)
    (h : part = [] ∨ whole.length = 1) : part = [] ∨ part = whole ∧ part.length = 1 := by
  rcases h with h | h
  · exact .inl h
  · have hle := hsub.length_le
    rcases Nat.eq_zero_or_pos part.length with hzero | hpos
    · exact .inl (List.eq_nil_of_length_eq_zero hzero)
    · exact .inr ⟨hsub.eq_of_length (by omega), by omega⟩

/-- Then sums over the product are sums over the selection. -/
theorem sum_product {part whole : List γ} (hsub : part.Sublist whole)
    (h : part = [] ∨ whole.length = 1) (g : γ → ℤ) :
    part.length * (whole.map g).sum = (part.map g).sum := by
  rcases empty_or_whole hsub h with rfl | ⟨rfl, hlength⟩
  · simp only [List.length_nil, Nat.cast_zero, zero_mul, List.map_nil, List.sum_nil]
  · rw [hlength, Nat.cast_one, one_mul]

/-- And so are counts. -/
theorem count_product {part whole : List γ} (hsub : part.Sublist whole)
    (h : part = [] ∨ whole.length = 1) (p : γ → Bool) :
    part.length * (whole.filter p).length = (part.filter p).length := by
  rcases empty_or_whole hsub h with rfl | ⟨rfl, hlength⟩
  · simp only [List.length_nil, zero_mul, List.filter_nil]
  · rw [hlength, one_mul]

end Product

section Groups

variable [DecidableEq K]

/-- `GROUP BY`: the sum of a measure for each key that occurs. -/
def groupSums (keys : List K) (key : α → K) (g : α → ℤ) (rows : List α) : List (K × ℤ) :=
  (keys.filter fun k => rows.any fun r => key r = k).map fun k =>
    (k, ((rows.filter fun r => key r = k).map g).sum)

/-- The groups of any measure, absent ones included, add up to the rows whose key is listed. -/
theorem sum_groups {keys : List K} (hkeys : keys.Nodup) (key : α → K) (g : α → ℤ)
    (rows : List α) :
    (keys.map fun k => ((rows.filter fun r => key r = k).map g).sum).sum =
      ((rows.filter fun r => key r ∈ keys).map g).sum := by
  induction keys with
  | nil => simp only [List.map_nil, List.sum_nil, List.not_mem_nil, decide_false, List.filter_false]
  | cons k keys ih =>
    obtain ⟨hk, hkeys⟩ := List.nodup_cons.mp hkeys
    rw [List.map_cons, List.sum_cons, ih hkeys]
    clear ih
    induction rows with
    | nil => simp only [List.filter_nil, List.map_nil, List.sum_nil, add_zero]
    | cons r rows ih =>
      by_cases hr : key r = k
      · have hnot : ¬ key r ∈ keys := hr ▸ hk
        simp only [List.filter_cons, hr, hk, decide_true, decide_false, if_true, List.mem_cons,
          true_or, Bool.false_eq_true, if_false, List.map_cons, List.sum_cons]
        simp only [List.mem_cons] at ih
        rw [← ih, add_assoc]
      · by_cases hmem : key r ∈ keys
        · simp only [List.filter_cons, hr, hmem, decide_true, decide_false, if_true, List.mem_cons,
            or_true, Bool.false_eq_true, if_false, List.map_cons, List.sum_cons]
          simp only [List.mem_cons] at ih
          rw [← ih]
          abel
        · simp only [List.filter_cons, hr, hmem, decide_false, List.mem_cons, or_self,
            Bool.false_eq_true, if_false]
          simpa only [List.mem_cons] using ih

/-- The groups that occur add up to the whole selection. -/
theorem sum_groupSums {keys : List K} (hkeys : keys.Nodup) {key : α → K} (g : α → ℤ)
    {rows : List α} (hall : ∀ r ∈ rows, key r ∈ keys) :
    ((groupSums keys key g rows).map Prod.snd).sum = (rows.map g).sum := by
  have hwhole : rows.filter (fun r => key r ∈ keys) = rows :=
    List.filter_eq_self.mpr fun r hr => decide_eq_true (hall r hr)
  have hgroups := sum_groups hkeys key g rows
  rw [hwhole] at hgroups
  rw [← hgroups, groupSums, List.map_map]
  clear hgroups hwhole hall hkeys
  induction keys with
  | nil => rfl
  | cons k keys ih =>
    cases hany : rows.any fun r => key r = k with
    | true => simp only [List.filter_cons, hany, if_true, List.map_cons, List.sum_cons, ih,
        Function.comp_apply]
    | false =>
      have hempty : rows.filter (fun r => key r = k) = [] := by
        rw [List.filter_eq_nil_iff]
        exact List.any_eq_false.mp hany
      simp only [List.filter_cons, hany, Bool.false_eq_true, if_false, ih, List.map_cons,
        List.sum_cons, hempty, List.map_nil, List.sum_nil, zero_add]

end Groups

end Munavvar.Aggregation
