import Mathlib.Data.List.Sort

/-!
# Keyset paging

Rows have pairwise different keys in a linear order. A page holds the first
rows after a position and says whether more follow; the position of the next
page is the key of its last row. Following the pages from the start ends and
gives all rows in the order of their keys, each once.
-/

namespace Munavvar.Keyset

variable {α κ T ε : Type}

/-- One page of rows with the token of the next one. -/
structure Page (α T : Type) where
  /-- The rows. -/
  items : List α
  /-- Whether rows follow. -/
  hasMore : Bool
  /-- The token of the next page. -/
  next : Option T

/-- Follow the tokens from page to page until nothing follows; none if that
takes more requests than allowed. -/
def follow (serve : Option T → Except ε (Page α T)) : ℕ → Option T → Option (Except ε (List α))
  | 0, _ => none
  | n + 1, token =>
    match serve token with
    | .error e => some (.error e)
    | .ok page =>
      if page.hasMore then
        (follow serve n page.next).map fun rest => rest.map fun items => page.items ++ items
      else some (.ok page.items)

section Rows

variable [LinearOrder κ] (key : α → κ)

/-- The row comes after a position; without a position all rows do. -/
def isAfter (position : Option κ) (a : α) : Bool := position.all fun k => decide (k < key a)

/-- The rows in the order of their keys. -/
def sorted (l : List α) : List α := l.insertionSort fun a b => key a ≤ key b

/-- The first rows after a position. -/
def fetch (l : List α) (position : Option κ) (limit : ℕ) : List α :=
  (sorted key (l.filter (isAfter key position))).take limit

/-- The page at a position: one more row is fetched to see whether any follow. -/
def pageAt (encode : κ → T) (l : List α) (size : ℕ) (position : Option κ) : Page α T :=
  let rows := fetch key l position (size + 1)
  let items := rows.take size
  { items
    hasMore := decide (size < rows.length)
    next := if size < rows.length then items.getLast?.map fun a => encode (key a) else none }

variable {key}

theorem sorted_perm (l : List α) : (sorted key l).Perm l := List.perm_insertionSort _ l

/-- Different keys are sorted strictly. -/
theorem sorted_strict {l : List α} (h : (l.map key).Nodup) :
    (sorted key l).Pairwise fun a b => key a < key b := by
  have hle : (sorted key l).Pairwise fun a b => key a ≤ key b := by
    have htotal : Std.Total fun a b : α => key a ≤ key b := ⟨fun a b => le_total _ _⟩
    have htrans : IsTrans α fun a b => key a ≤ key b := ⟨fun a b c => le_trans⟩
    exact List.pairwise_insertionSort _ l
  have hne : (sorted key l).Pairwise fun a b => key a ≠ key b := by
    have hnodup : ((sorted key l).map key).Nodup := ((sorted_perm l).map key).nodup_iff.mpr h
    exact List.pairwise_map.mp hnodup
  exact (hle.and hne).imp fun h => lt_of_le_of_ne h.1 h.2

/-- There is one way to sort rows strictly. -/
theorem eq_of_strict {l l' : List α} (hperm : l.Perm l')
    (h : l.Pairwise fun a b => key a < key b) (h' : l'.Pairwise fun a b => key a < key b) :
    l = l' := by
  refine hperm.eq_of_pairwise (fun a b _ _ hab hba => ?_) h h'
  exact absurd hab (lt_asymm hba)

/-- Sorting what is selected is selecting from what is sorted. -/
theorem sorted_filter {l : List α} (h : (l.map key).Nodup) (p : α → Bool) :
    sorted key (l.filter p) = (sorted key l).filter p := by
  have hnodup : ((l.filter p).map key).Nodup := (List.filter_sublist.map key).nodup h
  refine eq_of_strict ?_ (sorted_strict hnodup) ((sorted_strict h).sublist List.filter_sublist)
  exact (sorted_perm _).trans ((sorted_perm l).filter p).symm

/-- What comes after the last row of a page is what the page leaves. -/
theorem filter_after_last {l : List α} (h : l.Pairwise fun a b => key a < key b) {n : ℕ} {last : α}
    (hlast : (l.take n).getLast? = some last) :
    l.filter (isAfter key (some (key last))) = l.drop n := by
  obtain ⟨init, hinit⟩ := List.getLast?_eq_some_iff.mp hlast
  have hsplit : l = (init ++ [last]) ++ l.drop n := by
    rw [← hinit, List.take_append_drop]
  have hpairs := h
  rw [hsplit, List.pairwise_append] at hpairs
  obtain ⟨hpage, -, hrest⟩ := hpairs
  have hbefore : (init ++ [last]).filter (isAfter key (some (key last))) = [] := by
    rw [List.filter_eq_nil_iff]
    intro a ha
    rw [isAfter, Option.all_some, decide_eq_true_eq, not_lt]
    rcases List.mem_append.mp ha with ha | ha
    · exact ((List.pairwise_append.mp hpage).2.2 a ha last (List.mem_singleton_self last)).le
    · rw [List.mem_singleton.mp ha]
  have hafter : (l.drop n).filter (isAfter key (some (key last))) = l.drop n := by
    rw [List.filter_eq_self]
    intro a ha
    rw [isAfter, Option.all_some, decide_eq_true_eq]
    exact hrest last (List.mem_append_right _ (List.mem_singleton_self last)) a ha
  conv_lhs => rw [hsplit]
  rw [List.filter_append, hbefore, hafter, List.nil_append]

/-- The next position leaves what the page leaves. -/
theorem filter_next {l : List α} (h : l.Pairwise fun a b => key a < key b) {position : Option κ}
    {n : ℕ} {last : α}
    (hlast : ((l.filter (isAfter key position)).take n).getLast? = some last) :
    l.filter (isAfter key (some (key last))) = (l.filter (isAfter key position)).drop n := by
  rw [← filter_after_last (h.sublist List.filter_sublist) hlast, List.filter_filter]
  refine List.filter_congr fun a _ => ?_
  have hmem := List.mem_of_mem_take (List.mem_of_getLast? hlast)
  have hposition := (List.mem_filter.mp hmem).2
  cases position with
  | none => simp [isAfter]
  | some k =>
    simp only [isAfter, Option.all_some, decide_eq_true_eq] at hposition ⊢
    by_cases ha : key last < key a
    · simp [ha, hposition.trans ha]
    · simp [ha]

/-- Following the tokens yields all rows in the order of their keys, each once. -/
theorem follow_eq_sorted {l : List α} (hkeys : (l.map key).Nodup) {size : ℕ} (hsize : 0 < size)
    {encode : κ → T} {serve : Option T → Except ε (Page α T)}
    (hserve : ∀ position : Option κ, (∀ k ∈ position, ∃ a ∈ l, key a = k) →
      serve (position.map encode) = .ok (pageAt key encode l size position))
    {fuel : ℕ} (hfuel : l.length < fuel) :
    follow serve fuel none = some (.ok (sorted key l)) := by
  have hstrict := sorted_strict hkeys
  -- what is left after a position decides how many pages follow
  have hfollow : ∀ (fuel : ℕ) (position : Option κ), (∀ k ∈ position, ∃ a ∈ l, key a = k) →
      ((sorted key l).filter (isAfter key position)).length < fuel →
      follow serve fuel (position.map encode) =
        some (.ok ((sorted key l).filter (isAfter key position))) := by
    intro fuel
    induction fuel with
    | zero => exact fun _ _ h => absurd h (Nat.not_lt_zero _)
    | succ fuel ih =>
      intro position hposition hlength
      have hfetch : fetch key l position (size + 1) =
          ((sorted key l).filter (isAfter key position)).take (size + 1) := by
        rw [fetch, sorted_filter hkeys]
      have hpage := hserve position hposition
      have hnext : ∀ last, (((sorted key l).filter (isAfter key position)).take size).getLast? =
          some last → (sorted key l).filter (isAfter key (some (key last))) =
            ((sorted key l).filter (isAfter key position)).drop size := fun last hlast =>
        filter_next hstrict hlast
      have hsub : ∀ a ∈ (sorted key l).filter (isAfter key position), a ∈ l := fun a ha =>
        (sorted_perm l).mem_iff.mp (List.mem_filter.mp ha).1
      rw [pageAt, hfetch] at hpage
      generalize (sorted key l).filter (isAfter key position) = rows at hlength hpage hnext hsub ⊢
      rw [List.take_take, min_eq_left (Nat.le_succ size), List.length_take] at hpage
      rw [follow, hpage]
      by_cases hmore : size < rows.length
      · have hcount : size < min (size + 1) rows.length := by omega
        have hne : rows.take size ≠ [] := by
          intro hnil
          have hzero := congrArg List.length hnil
          rw [List.length_take, List.length_nil] at hzero
          omega
        obtain ⟨last, hlast⟩ := Option.isSome_iff_exists.mp (List.getLast?_isSome.mpr hne)
        have hlast_mem := hsub last (List.mem_of_mem_take (List.mem_of_getLast? hlast))
        have hrest := hnext last hlast
        have hdrop : (rows.drop size).length < fuel := by
          rw [List.length_drop]
          omega
        have hind := ih (some (key last)) (fun k hk => ⟨last, hlast_mem, Option.some.inj hk⟩)
          (by rw [hrest]; exact hdrop)
        simp only [hcount, decide_true, if_true, hlast, Option.map_some] at hind ⊢
        rw [hind, Option.map_some, hrest, Except.map, List.take_append_drop]
      · have hcount : ¬ size < min (size + 1) rows.length := by omega
        simp only [hcount, decide_false, Bool.false_eq_true, if_false]
        rw [List.take_of_length_le (by omega)]
  have hall : (sorted key l).filter (isAfter key none) = sorted key l := by
    rw [List.filter_eq_self]
    exact fun _ _ => rfl
  have hlength : (sorted key l).length < fuel := by
    rw [(sorted_perm l).length_eq]
    exact hfuel
  have hstart := hfollow fuel none (fun k hk => absurd hk (by simp)) (by rw [hall]; exact hlength)
  rwa [hall] at hstart

end Rows

end Munavvar.Keyset
