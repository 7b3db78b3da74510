import Mathlib.Algebra.BigOperators.Group.List.Basic
import Mathlib.Algebra.Order.BigOperators.Group.List
import Mathlib.Algebra.Order.Group.Int
import Mathlib.Data.List.Nodup
import Mathlib.Data.List.Perm.Basic
import Mathlib.Tactic.Abel

/-!
# Keyed tables with measures

A table is a list of rows in insertion order whose keys are pairwise
different. One operation `put` writes, inserts or deletes the row of one key.
The measure lemmas say how a sum or a selection over all rows moves when one
key is written, which is all that a ledger or a counter kept beside the table
needs to know.
-/

namespace Munavvar.KeyedTable

/-- Rows in insertion order, at most one for each key. -/
structure Table (K V : Type) where
  /-- The stored rows with their keys. -/
  rows : List (K × V)
  /-- The primary key: no key occurs twice. -/
  nodup : (rows.map Prod.fst).Nodup

namespace Table

variable {K V : Type}

/-- The table without rows. -/
def empty : Table K V := ⟨[], List.nodup_nil⟩

/-- The keys in insertion order. -/
def keys (t : Table K V) : List K := t.rows.map Prod.fst

/-- The rows' values that satisfy a condition, in insertion order. -/
def select (t : Table K V) (p : K → V → Bool) : List V :=
  (t.rows.filter fun r => p r.1 r.2).map Prod.snd

/-- The sum of a measure over all rows. -/
def total {M : Type} [AddCommMonoid M] (t : Table K V) (g : K → V → M) : M :=
  (t.rows.map fun r => g r.1 r.2).sum

/-- Measures add up row by row. -/
theorem total_sub {M : Type} [AddCommGroup M] (t : Table K V) (g h : K → V → M) :
    t.total (fun k v => g k v - h k v) = t.total g - t.total h := by
  unfold total
  induction t.rows with
  | nil => simp only [List.map_nil, List.sum_nil, sub_zero]
  | cons r rows ih =>
    simp only [List.map_cons, List.sum_cons, ih]
    abel

section Lookup

variable [DecidableEq K]

/-- The row stored under a key. -/
def find? (t : Table K V) (k : K) : Option V := t.rows.lookup k

/-- Store a row under a key: the old row is overwritten where it stands, a new
key goes to the end, and `none` deletes. -/
def put (t : Table K V) (k : K) : Option V → Table K V
  | none => ⟨t.rows.filter fun r => r.1 ≠ k,
      (List.filter_sublist.map Prod.fst).nodup t.nodup⟩
  | some v =>
    if h : k ∈ t.rows.map Prod.fst then
      ⟨t.rows.map fun r => if r.1 = k then (k, v) else r, by
        have hkeys : (t.rows.map fun r => if r.1 = k then (k, v) else r).map Prod.fst =
            t.rows.map Prod.fst := by
          rw [List.map_map]
          apply List.map_congr_left
          intro r _
          dsimp only [Function.comp]
          split
          · next hr => exact hr.symm
          · rfl
        rw [hkeys]
        exact t.nodup⟩
    else
      ⟨t.rows ++ [(k, v)], by
        rw [List.map_append]
        exact t.nodup.append (List.nodup_singleton k)
          (List.disjoint_singleton.mpr h)⟩

/-- Membership of a row and lookup of its key are the same. -/
theorem mem_rows_iff (t : Table K V) (k : K) (v : V) :
    (k, v) ∈ t.rows ↔ t.find? k = some v := by
  obtain ⟨rows, nodup⟩ := t
  dsimp only [find?]
  induction rows with
  | nil => simp only [List.not_mem_nil, List.lookup_nil, reduceCtorEq]
  | cons r rows ih =>
    obtain ⟨j, w⟩ := r
    rw [List.map_cons, List.nodup_cons] at nodup
    rw [List.mem_cons, List.lookup_cons]
    by_cases hj : k = j
    · subst hj
      have habsent : (k, v) ∉ rows := fun hm =>
        nodup.1 (List.mem_map.mpr ⟨(k, v), hm, rfl⟩)
      simp only [habsent, or_false, beq_self_eq_true, Prod.mk.injEq, true_and, Option.some.injEq]
      exact eq_comm
    · have hbeq : (k == j) = false := by simpa using hj
      simp only [hbeq, Prod.mk.injEq, hj, false_and, false_or]
      exact ih nodup.2

theorem find?_eq_none_iff (t : Table K V) (k : K) :
    t.find? k = none ↔ k ∉ t.rows.map Prod.fst := by
  rw [find?, List.lookup_eq_none_iff, List.mem_map]
  constructor
  · rintro h ⟨r, hr, rfl⟩
    simpa using h r hr
  · intro h r hr
    exact bne_iff_ne.mpr fun hk => h ⟨r, hr, hk.symm⟩

@[simp] theorem find?_empty (k : K) : (empty : Table K V).find? k = none := rfl

/-- The rows of all other keys. -/
def others (t : Table K V) (k : K) : List (K × V) := t.rows.filter fun r => r.1 ≠ k

/-- Up to order a table is the row of one key beside the rows of the others. -/
theorem rows_perm (t : Table K V) (k : K) :
    t.rows.Perm ((t.find? k).toList.map (Prod.mk k) ++ t.others k) := by
  obtain ⟨rows, nodup⟩ := t
  dsimp only [find?, others]
  induction rows with
  | nil => simp only [List.lookup_nil, Option.toList_none, List.map_nil, List.filter_nil,
      List.append_nil, List.Perm.refl]
  | cons r rows ih =>
    obtain ⟨j, w⟩ := r
    rw [List.map_cons, List.nodup_cons] at nodup
    rw [List.lookup_cons, List.filter_cons]
    by_cases hj : k = j
    · subst hj
      have hrest : rows.filter (fun r => r.1 ≠ k) = rows := by
        rw [List.filter_eq_self]
        intro r hr
        simpa using fun hk : r.1 = k => nodup.1 (List.mem_map.mpr ⟨r, hr, hk⟩)
      simp only [beq_self_eq_true, Option.toList_some, List.map_cons, List.map_nil, ne_eq,
        not_true_eq_false, decide_false, Bool.false_eq_true, if_false, List.cons_append,
        List.nil_append]
      rw [hrest]
    · have hbeq : (k == j) = false := by simpa using hj
      have hne : decide (j ≠ k) = true := by simpa using fun h => hj h.symm
      simp only [hbeq, hne, if_true]
      exact ((ih nodup.2).cons (j, w)).trans List.perm_middle.symm

/-- Writing one key leaves the rows of the others as they are. -/
theorem others_put (t : Table K V) (k : K) (o : Option V) : (t.put k o).others k = t.others k := by
  cases o with
  | none => simp only [others, put, List.filter_filter, Bool.and_self]
  | some v =>
    by_cases h : k ∈ t.rows.map Prod.fst
    · rw [put, dif_pos h]
      dsimp only [others]
      rw [List.filter_map]
      have hkey : ∀ r : K × V, ((fun r : K × V => decide (r.1 ≠ k)) ∘
          fun r => if r.1 = k then (k, v) else r) r = decide (r.1 ≠ k) := by
        intro r
        dsimp only [Function.comp]
        split <;> simp_all
      rw [List.filter_congr fun r _ => hkey r]
      apply (List.map_congr_left _).trans (List.map_id _)
      intro r hr
      have hr : r.1 ≠ k := by simpa using (List.mem_filter.mp hr).2
      rw [if_neg hr, id]
    · rw [put, dif_neg h]
      simp only [others, List.filter_append, List.filter_cons, List.filter_nil, ne_eq,
        not_true_eq_false, decide_false, Bool.false_eq_true, if_false, List.append_nil]

/-- The row just written is the one found. -/
@[simp] theorem find?_put_self (t : Table K V) (k : K) (o : Option V) :
    (t.put k o).find? k = o := by
  cases o with
  | none =>
    rw [find?_eq_none_iff]
    simp [put]
  | some v =>
    rw [← mem_rows_iff]
    by_cases h : k ∈ t.rows.map Prod.fst
    · rw [put, dif_pos h]
      obtain ⟨r, hr, hk⟩ := List.mem_map.mp h
      exact List.mem_map.mpr ⟨r, hr, if_pos hk⟩
    · rw [put, dif_neg h]
      exact List.mem_append_right _ (List.mem_singleton.mpr rfl)

theorem mem_others_iff (t : Table K V) {j k : K} (hne : j ≠ k) (v : V) :
    (j, v) ∈ t.others k ↔ t.find? j = some v := by
  rw [← mem_rows_iff]
  simp [others, hne]

/-- Lookup of another key does not see the write. -/
theorem find?_put_ne (t : Table K V) {j k : K} (hne : j ≠ k) (o : Option V) :
    (t.put k o).find? j = t.find? j := by
  apply Option.ext
  intro v
  rw [← mem_others_iff _ hne, ← mem_others_iff _ hne, others_put]

theorem find?_put (t : Table K V) (j k : K) (o : Option V) :
    (t.put k o).find? j = if j = k then o else t.find? j := by
  split
  · next h => rw [h, find?_put_self]
  · next h => exact find?_put_ne t h o

/-- Writing one row moves a total by the new row's measure minus the old one's. -/
theorem total_put {M : Type} [AddCommGroup M] (t : Table K V) (k : K) (o : Option V)
    (g : K → V → M) :
    (t.put k o).total g = t.total g - (t.find? k).elim 0 (g k) + o.elim 0 (g k) := by
  have hsplit : ∀ u : Table K V, u.total g =
      (u.find? k).elim 0 (g k) + ((u.others k).map fun r => g r.1 r.2).sum := by
    intro u
    rw [total, ((u.rows_perm k).map fun r => g r.1 r.2).sum_eq, List.map_append, List.sum_append]
    cases u.find? k <;> simp
  rw [hsplit t, hsplit (t.put k o), others_put, find?_put_self]
  abel

/-- Only lookups matter for a total. -/
theorem total_of_find?_eq {M : Type} [AddCommMonoid M] {t u : Table K V}
    (h : ∀ k, t.find? k = u.find? k) (g : K → V → M) : t.total g = u.total g := by
  have hperm : t.rows.Perm u.rows := by
    refine (List.perm_ext_iff_of_nodup t.nodup.of_map u.nodup.of_map).mpr fun r => ?_
    rw [t.mem_rows_iff r.1 r.2, u.mem_rows_iff r.1 r.2, h]
  exact (hperm.map _).sum_eq

/-- Two tables that differ at most in the row of one key. -/
def Written (t t' : Table K V) (k : K) (r : Option V) : Prop :=
  ∀ j, t'.find? j = if j = k then r else t.find? j

theorem written_put (t : Table K V) (k : K) (r : Option V) : t.Written (t.put k r) k r :=
  fun j => t.find?_put j k r

/-- A row that is already as it should be needs no write. -/
theorem written_self {t : Table K V} {k : K} {r : Option V} (h : t.find? k = r) :
    t.Written t k r := by
  intro j
  split
  · next hj => rw [hj, h]
  · rfl

/-- The last of several writes to one row counts. -/
theorem Written.put {t t' : Table K V} {k : K} {r : Option V} (h : t.Written t' k r)
    (r' : Option V) : t.Written (t'.put k r') k r' := by
  intro j
  rw [find?_put, h j]
  split <;> rfl

/-- Two writes to the same row. -/
theorem Written.trans {t t' t'' : Table K V} {k : K} {r r' : Option V} (h : t.Written t' k r)
    (h' : t'.Written t'' k r') : t.Written t'' k r' := by
  intro j
  rw [h' j, h j]
  split <;> rfl

theorem Written.find?_self {t t' : Table K V} {k : K} {r : Option V} (h : t.Written t' k r) :
    t'.find? k = r := (h k).trans (if_pos rfl)

theorem Written.find?_ne {t t' : Table K V} {k : K} {r : Option V} (h : t.Written t' k r) {j : K}
    (hne : j ≠ k) : t'.find? j = t.find? j := (h j).trans (if_neg hne)

/-- A total moves by the difference between the row's measures. -/
theorem Written.total {M : Type} [AddCommGroup M] {t t' : Table K V} {k : K} {r : Option V}
    (h : t.Written t' k r) (g : K → V → M) :
    t'.total g = t.total g - (t.find? k).elim 0 (g k) + r.elim 0 (g k) := by
  rw [← total_put, total_of_find?_eq fun j => (h j).trans (t.find?_put j k r).symm]

/-- Storing what is stored changes nothing. -/
theorem put_eq_self {t : Table K V} {k : K} {o : Option V} (h : t.find? k = o) : t.put k o = t := by
  obtain ⟨rows, nodup⟩ := t
  cases o with
  | none =>
    have hk := (find?_eq_none_iff ⟨rows, nodup⟩ k).mp h
    have hrows : rows.filter (fun r => r.1 ≠ k) = rows := by
      rw [List.filter_eq_self]
      intro r hr
      simpa using fun hrk : r.1 = k => hk (List.mem_map.mpr ⟨r, hr, hrk⟩)
    simp only [put, hrows]
  | some v =>
    have hmem := (mem_rows_iff ⟨rows, nodup⟩ k v).mpr h
    have hrows : rows.map (fun r => if r.1 = k then (k, v) else r) = rows := by
      refine (List.map_congr_left fun r hr => ?_).trans (List.map_id rows)
      split
      · next hrk =>
        have hr := (mem_rows_iff ⟨rows, nodup⟩ r.1 r.2).mp hr
        rw [hrk, h, Option.some.injEq] at hr
        rw [id, hr, ← hrk]
      · rfl
    have hkey : k ∈ rows.map Prod.fst := List.mem_map.mpr ⟨(k, v), hmem, rfl⟩
    simp only [put, dif_pos hkey, hrows]

/-- Store several rows one after another. -/
def putAll (t : Table K V) (rows : List (K × V)) : Table K V :=
  rows.foldl (fun t r => t.put r.1 (some r.2)) t

theorem find?_putAll (t : Table K V) {rows : List (K × V)} (h : (rows.map Prod.fst).Nodup) (k : K) :
    (t.putAll rows).find? k = (rows.lookup k).or (t.find? k) := by
  induction rows generalizing t with
  | nil => rfl
  | cons r rows ih =>
    rw [List.map_cons, List.nodup_cons] at h
    rw [putAll, List.foldl_cons, ← putAll, ih _ h.2, find?_put, List.lookup_cons]
    by_cases hk : k = r.1
    · have habsent : rows.lookup k = none := by
        rw [List.lookup_eq_none_iff]
        intro r' hr'
        exact bne_iff_ne.mpr fun heq => h.1 (List.mem_map.mpr ⟨r', hr', heq.symm.trans hk⟩)
      simp [hk, hk ▸ habsent]
    · have hbeq : (k == r.1) = false := by simpa using hk
      simp [hk, hbeq]

/-- Several writes move a total by the sum of their differences. -/
theorem total_putAll {M : Type} [AddCommGroup M] (t : Table K V) {rows : List (K × V)}
    (h : (rows.map Prod.fst).Nodup) (g : K → V → M) :
    (t.putAll rows).total g =
      t.total g + (rows.map fun r => g r.1 r.2 - (t.find? r.1).elim 0 (g r.1)).sum := by
  induction rows generalizing t with
  | nil => exact (add_zero _).symm
  | cons r rows ih =>
    rw [List.map_cons, List.nodup_cons] at h
    have hrest : (rows.map fun r' => g r'.1 r'.2 -
        ((t.put r.1 (some r.2)).find? r'.1).elim 0 (g r'.1)) =
        rows.map fun r' => g r'.1 r'.2 - (t.find? r'.1).elim 0 (g r'.1) := by
      refine List.map_congr_left fun r' hr' => ?_
      rw [find?_put_ne _ fun heq => h.1 (List.mem_map.mpr ⟨r', hr', heq⟩)]
    rw [putAll, List.foldl_cons, ← putAll, ih _ h.2, hrest, total_put, List.map_cons,
      List.sum_cons, Option.elim_some]
    abel

/-- Only rows of the table matter for a total. -/
theorem total_congr {M : Type} [AddCommMonoid M] {t : Table K V} {g h : K → V → M}
    (hgh : ∀ k v, t.find? k = some v → g k v = h k v) : t.total g = t.total h := by
  unfold total
  congr 1
  apply List.map_congr_left
  intro r hr
  exact hgh r.1 r.2 ((t.mem_rows_iff r.1 r.2).mp hr)

/-- The sum over a selection is the total when the other rows measure nothing. -/
theorem sum_select {M : Type} [AddCommMonoid M] {t : Table K V} {p : K → V → Bool} {g : V → M}
    (h : ∀ k v, t.find? k = some v → p k v = false → g v = 0) :
    ((t.select p).map g).sum = t.total fun _ v => g v := by
  have hrow : ∀ r ∈ t.rows, p r.1 r.2 = false → g r.2 = 0 := fun r hr =>
    h r.1 r.2 ((t.mem_rows_iff r.1 r.2).mp hr)
  unfold select total
  generalize t.rows = rows at hrow
  induction rows with
  | nil => rfl
  | cons r rows ih =>
    have ih := ih fun r' hr' => hrow r' (List.mem_cons_of_mem _ hr')
    cases hp : p r.1 r.2 with
    | true => simp only [List.filter_cons, hp, if_true, List.map_cons, List.sum_cons, ih]
    | false =>
      simp only [List.filter_cons, hp, Bool.false_eq_true, if_false, List.map_cons, List.sum_cons,
        ih, hrow r List.mem_cons_self hp, zero_add]

/-- Some rows contribute at most the total of a nonnegative measure. -/
theorem sum_le_total {t : Table K V} {g : K → V → ℤ}
    (hg : ∀ k v, t.find? k = some v → 0 ≤ g k v) {rows : List (K × V)}
    (hnodup : (rows.map Prod.fst).Nodup) (hrows : ∀ r ∈ rows, t.find? r.1 = some r.2) :
    (rows.map fun r => g r.1 r.2).sum ≤ t.total g := by
  have hsub : rows.Subperm t.rows := by
    apply List.subperm_of_subset hnodup.of_map
    intro r hr
    exact (t.mem_rows_iff r.1 r.2).mpr (hrows r hr)
  obtain ⟨l, hperm, hsublist⟩ := hsub
  rw [← (hperm.map fun r => g r.1 r.2).sum_eq]
  apply (hsublist.map _).sum_le_sum
  intro x hx
  obtain ⟨r, hr, rfl⟩ := List.mem_map.mp hx
  exact hg r.1 r.2 ((t.mem_rows_iff r.1 r.2).mp hr)

theorem le_total {t : Table K V} {g : K → V → ℤ} (hg : ∀ k v, t.find? k = some v → 0 ≤ g k v)
    {k : K} {v : V} (hv : t.find? k = some v) : g k v ≤ t.total g := by
  have hrows : ∀ r ∈ [(k, v)], t.find? r.1 = some r.2 := by simpa using hv
  have hnodup : ([(k, v)].map Prod.fst).Nodup := List.nodup_singleton k
  simpa using sum_le_total hg hnodup hrows

/-- A selection sees exactly the stored rows that satisfy its condition. -/
theorem mem_select_iff (t : Table K V) (p : K → V → Bool) (v : V) :
    v ∈ t.select p ↔ ∃ k, t.find? k = some v ∧ p k v = true := by
  simp only [select, List.mem_map, List.mem_filter, Prod.exists, exists_eq_right, mem_rows_iff]

/-- A write that neither removes nor adds a selected row keeps the selection. -/
theorem select_put_of_not {t : Table K V} {p : K → V → Bool} {k : K} {o : Option V}
    (hold : ∀ v, t.find? k = some v → p k v = false) (hnew : ∀ v, o = some v → p k v = false) :
    (t.put k o).select p = t.select p := by
  have hothers : ∀ u : Table K V, (∀ v, u.find? k = some v → p k v = false) →
      u.select p = ((u.others k).filter fun r => p r.1 r.2).map Prod.snd := by
    intro u hu
    rw [select, others, List.filter_filter]
    congr 1
    apply List.filter_congr
    intro r hr
    by_cases hk : r.1 = k
    · have hr := hu r.2 ((u.mem_rows_iff k r.2).mp (hk ▸ hr))
      simp [hk, hr]
    · simp [hk]
  rw [hothers t hold, hothers (t.put k o) (fun v hv => hnew v (by rwa [find?_put_self] at hv)),
    others_put]

omit [DecidableEq K] in
/-- The length of a selection is a total. -/
theorem length_select (t : Table K V) (p : K → V → Bool) :
    ((t.select p).length : ℤ) = t.total fun k v => if p k v then 1 else 0 := by
  unfold select total
  induction t.rows with
  | nil => rfl
  | cons r rows ih =>
    rw [List.length_map] at ih ⊢
    rw [List.map_cons, List.sum_cons, ← ih, List.filter_cons]
    dsimp only
    by_cases hp : p r.1 r.2 = true
    · rw [if_pos hp, if_pos hp, List.length_cons, Nat.cast_succ, add_comm]
    · rw [if_neg hp, if_neg hp, zero_add]

/-- A new selected row is appended to the selection. -/
theorem select_put_new {t : Table K V} {p : K → V → Bool} {k : K} {v : V}
    (hk : t.find? k = none) (hp : p k v = true) :
    (t.put k (some v)).select p = t.select p ++ [v] := by
  have hk := (t.find?_eq_none_iff k).mp hk
  simp only [select, put, dif_neg hk, List.filter_append, List.map_append]
  simp [hp]

/-- The rows of some keys. -/
def restrict (t : Table K V) (p : K → Bool) : Table K V :=
  ⟨t.rows.filter fun r => p r.1, (List.filter_sublist.map Prod.fst).nodup t.nodup⟩

theorem find?_restrict (t : Table K V) (p : K → Bool) (k : K) :
    (t.restrict p).find? k = if p k then t.find? k else none := by
  have hrow : ∀ v, (t.restrict p).find? k = some v ↔ t.find? k = some v ∧ p k = true := by
    intro v
    rw [← mem_rows_iff, restrict, List.mem_filter, mem_rows_iff]
  by_cases hp : p k = true
  · rw [if_pos hp]
    refine Option.ext fun v => ?_
    rw [hrow]
    exact and_iff_left hp
  · rw [if_neg hp, Option.eq_none_iff_forall_ne_some]
    intro v hv
    exact hp ((hrow v).mp hv).2

omit [DecidableEq K] in
/-- A measure of some rows. -/
theorem total_restrict {M : Type} [AddCommMonoid M] (t : Table K V) (p : K → Bool)
    (g : K → V → M) : (t.restrict p).total g = t.total fun k v => if p k then g k v else 0 := by
  unfold total restrict
  dsimp only
  induction t.rows with
  | nil => rfl
  | cons r rows ih =>
    rw [List.map_cons, List.sum_cons, ← ih]
    by_cases hp : p r.1 = true
    · rw [List.filter_cons_of_pos (by simpa using hp), List.map_cons, List.sum_cons, if_pos hp]
    · rw [List.filter_cons_of_neg (by simpa using hp), if_neg hp, zero_add]

end Lookup

end Table

end Munavvar.KeyedTable
