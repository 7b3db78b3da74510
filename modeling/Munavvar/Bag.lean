import Mathlib.Algebra.BigOperators.Group.List.Basic
import Mathlib.Algebra.Order.BigOperators.Group.List
import Mathlib.Algebra.Order.Group.Int
import Mathlib.Data.List.Nodup

/-!
# Lists of quantities

A list of entries of a key and a quantity holds of each key the sum of its
entries. Programs collect such lists in dictionaries that keep their keys in
insertion order; collecting neither loses nor invents a quantity.
-/

namespace Munavvar.Bag

variable {K M : Type} [DecidableEq K]

section Amount

variable [AddCommMonoid M]

/-- How much a list of entries holds of a key. -/
def amount (m : List (K × M)) (k : K) : M := (m.map fun x => if x.1 = k then x.2 else 0).sum

@[simp] theorem amount_nil (k : K) : amount ([] : List (K × M)) k = 0 := rfl

@[simp] theorem amount_cons (x : K × M) (m : List (K × M)) (k : K) :
    amount (x :: m) k = (if x.1 = k then x.2 else 0) + amount m k := by
  rw [amount, List.map_cons, List.sum_cons, amount]

@[simp] theorem amount_append (m m' : List (K × M)) (k : K) :
    amount (m ++ m') k = amount m k + amount m' k := by
  rw [amount, List.map_append, List.sum_append, amount, amount]

/-- A key without an entry has no quantity. -/
theorem amount_eq_zero {m : List (K × M)} {k : K} (h : k ∉ m.map Prod.fst) : amount m k = 0 := by
  induction m with
  | nil => rfl
  | cons x m ih =>
    rw [List.map_cons, List.mem_cons, not_or] at h
    rw [amount_cons, if_neg (Ne.symm h.1), zero_add, ih h.2]

/-- The only entry of a key is its quantity. -/
theorem amount_of_mem {m : List (K × M)} (hm : (m.map Prod.fst).Nodup) {k : K} {q : M}
    (h : (k, q) ∈ m) : amount m k = q := by
  induction m with
  | nil => exact absurd h List.not_mem_nil
  | cons x m ih =>
    rw [List.map_cons, List.nodup_cons] at hm
    rw [amount_cons]
    rcases List.mem_cons.mp h with rfl | h
    · rw [if_pos rfl, amount_eq_zero hm.1, add_zero]
    · have hne : x.1 ≠ k := fun hx => hm.1 (hx ▸ List.mem_map.mpr ⟨(k, q), h, rfl⟩)
      rw [if_neg hne, zero_add, ih hm.2 h]

/-- The order of the entries does not matter. -/
theorem amount_perm {m m' : List (K × M)} (h : m.Perm m') (k : K) : amount m k = amount m' k :=
  (h.map _).sum_eq

/-- Entries of the keys that are kept keep their quantity. -/
theorem amount_filter (m : List (K × M)) (p : K → Bool) (k : K) :
    amount (m.filter fun x => p x.1) k = if p k then amount m k else 0 := by
  induction m with
  | nil => simp only [List.filter_nil, amount_nil, ite_self]
  | cons x m ih =>
    by_cases hx : x.1 = k
    · cases hp : p k <;> simp [hx, hp, ih]
    · cases hp : p x.1 <;> simp [hx, hp, ih]

end Amount

/-- Entries without a negative quantity hold no negative quantity. -/
theorem amount_nonneg {m : List (K × ℤ)} (h : ∀ x ∈ m, 0 ≤ x.2) (k : K) : 0 ≤ amount m k := by
  apply List.sum_nonneg
  intro q hq
  obtain ⟨x, hx, rfl⟩ := List.mem_map.mp hq
  split
  · exact h x hx
  · exact le_refl 0

/-- One of several nonnegative entries is at most the key's quantity. -/
theorem le_amount {m : List (K × ℤ)} (h : ∀ x ∈ m, 0 ≤ x.2) {x : K × ℤ} (hx : x ∈ m) :
    x.2 ≤ amount m x.1 := by
  induction m with
  | nil => exact absurd hx List.not_mem_nil
  | cons y m ih =>
    obtain ⟨hy, hm⟩ := List.forall_mem_cons.mp h
    rw [amount_cons]
    rcases List.mem_cons.mp hx with rfl | hx
    · have := amount_nonneg hm x.1
      rw [if_pos rfl]
      omega
    · have := ih hm hx
      split <;> omega

section Dictionary

variable [AddCommMonoid M]

/-- Add to the entry of a key, or make a new last entry. -/
def add : List (K × M) → K → M → List (K × M)
  | [], k, q => [(k, q)]
  | (j, a) :: m, k, q => if j = k then (j, a + q) :: m else (j, a) :: add m k q

/-- Collect entries in a dictionary. -/
def collect (m : List (K × M)) : List (K × M) := m.foldl (fun d x => add d x.1 x.2) []

theorem amount_add (m : List (K × M)) (j : K) (q : M) (k : K) :
    amount (add m j q) k = amount m k + if j = k then q else 0 := by
  induction m with
  | nil => rw [add, amount_cons, add_comm]
  | cons x m ih =>
    obtain ⟨i, a⟩ := x
    rw [add]
    split
    · next hi =>
      subst hi
      simp only [amount_cons]
      split
      · exact add_right_comm a q _
      · rw [add_zero]
    · rw [amount_cons, ih, amount_cons, add_assoc]

theorem mem_keys_add (m : List (K × M)) (j : K) (q : M) (k : K) :
    k ∈ (add m j q).map Prod.fst ↔ k = j ∨ k ∈ m.map Prod.fst := by
  induction m with
  | nil => simp only [add, List.map_cons, List.map_nil, List.mem_cons, List.not_mem_nil, or_false]
  | cons x m ih =>
    obtain ⟨i, a⟩ := x
    rw [add]
    split
    · next hi =>
      rw [List.map_cons, List.map_cons, List.mem_cons, hi]
      exact or_self_left.symm
    · rw [List.map_cons, List.map_cons, List.mem_cons, List.mem_cons, ih]
      exact or_left_comm

theorem nodup_add {m : List (K × M)} (h : (m.map Prod.fst).Nodup) (j : K) (q : M) :
    ((add m j q).map Prod.fst).Nodup := by
  induction m with
  | nil => exact List.nodup_singleton j
  | cons x m ih =>
    obtain ⟨i, a⟩ := x
    rw [List.map_cons, List.nodup_cons] at h
    rw [add]
    split
    · exact List.nodup_cons.mpr h
    · next hi =>
      refine List.nodup_cons.mpr ⟨fun hmem => ?_, ih h.2⟩
      exact ((mem_keys_add m j q i).mp hmem).elim hi h.1

/-- A dictionary built step by step keeps what each step keeps. -/
theorem collect_induction {I : List (K × M) → List (K × M) → Prop} (hnil : I [] [])
    (hstep : ∀ done d x, I done d → I (done ++ [x]) (add d x.1 x.2)) (m : List (K × M)) :
    I m (collect m) := by
  have hfold : ∀ (todo done d : List (K × M)), I done d →
      I (done ++ todo) (todo.foldl (fun d x => add d x.1 x.2) d) := by
    intro todo
    induction todo with
    | nil =>
      intro done d h
      rwa [List.append_nil]
    | cons x todo ih =>
      intro done d h
      have hx := ih (done ++ [x]) (add d x.1 x.2) (hstep done d x h)
      rwa [List.append_assoc] at hx
  exact hfold m [] [] hnil

/-- Collecting keeps every quantity. -/
@[simp] theorem amount_collect (m : List (K × M)) (k : K) : amount (collect m) k = amount m k := by
  apply collect_induction (I := fun done d => amount d k = amount done k) rfl
  intro done d x h
  rw [amount_add, h, amount_append, amount_cons, amount_nil, add_zero]

/-- A dictionary has one entry for each key. -/
theorem nodup_collect (m : List (K × M)) : ((collect m).map Prod.fst).Nodup :=
  collect_induction (I := fun _ d => (d.map Prod.fst).Nodup) List.nodup_nil
    (fun _ _ x h => nodup_add h x.1 x.2) m

theorem mem_keys_collect (m : List (K × M)) (k : K) :
    k ∈ (collect m).map Prod.fst ↔ k ∈ m.map Prod.fst := by
  apply collect_induction (I := fun done d => k ∈ d.map Prod.fst ↔ k ∈ done.map Prod.fst) Iff.rfl
  intro done d x h
  rw [mem_keys_add, h, List.map_append, List.mem_append, List.map_singleton, List.mem_singleton]
  exact or_comm

/-- An entry of a dictionary is the quantity of its key. -/
theorem eq_amount_of_mem_collect {m : List (K × M)} {x : K × M} (h : x ∈ collect m) :
    x.2 = amount m x.1 := by
  rw [← amount_collect, amount_of_mem (nodup_collect m) h]

/-- Looking a key up finds its quantity, or nothing. -/
theorem lookup_collect (m : List (K × M)) (k : K) :
    ((collect m).lookup k).getD 0 = amount m k := by
  rw [← amount_collect]
  cases hk : (collect m).lookup k with
  | none =>
    rw [List.lookup_eq_none_iff] at hk
    refine (amount_eq_zero fun hmem => ?_).symm
    obtain ⟨x, hx, rfl⟩ := List.mem_map.mp hmem
    exact absurd (hk x hx) (by simp)
  | some q =>
    obtain ⟨l, l', hm, -⟩ := List.lookup_eq_some_iff.mp hk
    have hmem : (k, q) ∈ collect m := by simp [hm]
    exact (amount_of_mem (nodup_collect m) hmem).symm

/-- Some of the keys hold as much together before and after they are collected. -/
theorem sum_collect (m : List (K × M)) (p : K → Bool) :
    (((collect m).filter fun x => p x.1).map Prod.snd).sum =
      ((m.filter fun x => p x.1).map Prod.snd).sum := by
  have hadd : ∀ (d : List (K × M)) (k : K) (q : M),
      (((add d k q).filter fun x => p x.1).map Prod.snd).sum =
        ((d.filter fun x => p x.1).map Prod.snd).sum + if p k then q else 0 := by
    intro d k q
    induction d with
    | nil => cases hk : p k <;> simp [add, hk]
    | cons x d ih =>
      obtain ⟨j, a⟩ := x
      rw [add]
      split
      · next hj =>
        subst hj
        cases hp : p j
        · simp [hp]
        · simp only [hp, List.filter_cons, if_true, List.map_cons, List.sum_cons]
          exact add_right_comm a q _
      · cases hp : p j
        · simpa [hp] using ih
        · simp only [hp, List.filter_cons, if_true, List.map_cons, List.sum_cons, ih]
          exact (add_assoc _ _ _).symm
  apply collect_induction (I := fun done d => ((d.filter fun x => p x.1).map Prod.snd).sum =
    ((done.filter fun x => p x.1).map Prod.snd).sum) rfl
  intro done d x h
  rw [hadd, h, List.filter_append, List.map_append, List.sum_append]
  cases hx : p x.1 <;> simp [hx]

end Dictionary

/-- Positive entries are collected in positive entries. -/
theorem collect_pos {m : List (K × ℤ)} (h : ∀ x ∈ m, 0 < x.2) : ∀ x ∈ collect m, 0 < x.2 := by
  intro x hx
  rw [eq_amount_of_mem_collect hx]
  have hkey := (mem_keys_collect m x.1).mp (List.mem_map.mpr ⟨x, hx, rfl⟩)
  obtain ⟨y, hy, hkey⟩ := List.mem_map.mp hkey
  have hle := le_amount (fun z hz => le_of_lt (h z hz)) hy
  rw [hkey] at hle
  exact lt_of_lt_of_le (h y hy) hle

end Munavvar.Bag
