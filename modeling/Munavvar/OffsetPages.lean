import Mathlib.Data.List.Nodup
import Mathlib.Data.List.Perm.Basic
import Mathlib.Data.List.Range
import Mathlib.Order.Defs.LinearOrder
import Mathlib.Algebra.GroupWithZero.Nat

/-!
# Pages by offset

A table is read page by page, each page by a query of its own that orders the
rows and skips those of the pages before. `ORDER BY` leaves open how rows with
equal sort keys follow one another, so each query may order them in its own
way. The pages together are the table for every choice of the answers exactly
when no two such rows stand at the two sides of a page's end.
-/

namespace Munavvar.OffsetPages

variable {α β ε : Type}

/-! ## Answers -/

/-- An answer to `ORDER BY`: the rows of the table in an order that the sort key allows. -/
structure Answer (before : α → α → Prop) (table rows : List α) : Prop where
  /-- The rows are those of the table. -/
  perm : rows.Perm table
  /-- They are in order. -/
  sorted : rows.Pairwise before

/-- `OFFSET k * size LIMIT size`. -/
def slice (size k : ℕ) (rows : List α) : List α := (rows.drop (k * size)).take size

/-- The first pages, each from the answer to its own query. -/
def read (size n : ℕ) (answers : ℕ → List α) : List α :=
  (List.range n).flatMap fun k => slice size k (answers k)

/-- No two rows with equal sort keys stand at the two sides of a page's end. -/
def CutsClean (before : α → α → Prop) (size : ℕ) (rows : List α) : Prop :=
  ∀ k, ∀ a ∈ rows[(k + 1) * size - 1]?, ∀ b ∈ rows[(k + 1) * size]?, ¬ before b a

theorem read_succ (size n : ℕ) (answers : ℕ → List α) :
    read size (n + 1) answers = read size n answers ++ slice size n (answers n) := by
  rw [read, List.range_succ, List.flatMap_append, List.flatMap_singleton, read]

/-- The rows up to the end of a page are those up to its beginning and its own. -/
theorem take_page (size k : ℕ) (rows : List α) :
    rows.take (k * size) ++ slice size k rows = rows.take ((k + 1) * size) := by
  rw [slice, Nat.succ_mul, List.take_add]

/-- Pages of one answer are its first rows. -/
theorem read_const (size n : ℕ) (rows : List α) :
    read size n (fun _ => rows) = rows.take (n * size) := by
  induction n with
  | zero => rw [Nat.zero_mul, List.take_zero, read, List.range_zero, List.flatMap_nil]
  | succ n ih => rw [read_succ, ih, take_page]

section Orders

variable {before : α → α → Prop} {table rows rows' : List α} {size : ℕ}

theorem Answer.length_eq (h : Answer before table rows) : rows.length = table.length :=
  h.perm.length_eq

/-- Without ties there is one answer. -/
theorem Answer.unique (hanti : ∀ a ∈ table, ∀ b ∈ table, before a b → before b a → a = b)
    (h : Answer before table rows) (h' : Answer before table rows') : rows = rows' := by
  refine (h.perm.trans h'.perm.symm).eq_of_pairwise (fun a b ha hb hab hba => ?_) h.sorted h'.sorted
  have ha : a ∈ table := h.perm.mem_iff.mp ha
  have hb : b ∈ table := h'.perm.mem_iff.mp hb
  exact hanti a ha b hb hab hba

/-- Rows that come before others are the first ones of an answer. -/
theorem take_filter {p : α → Bool} (hclosed : ∀ a b, before a b → p b = true → p a = true)
    (hsorted : rows.Pairwise before) : rows.filter p = rows.take (rows.filter p).length := by
  induction rows with
  | nil => rfl
  | cons a rows ih =>
    have hpairs := List.pairwise_cons.mp hsorted
    cases ha : p a with
    | true => rw [List.filter_cons_of_pos ha, List.length_cons, List.take_succ_cons, ← ih hpairs.2]
    | false =>
      have hnone : rows.filter p = [] := by
        rw [List.filter_eq_nil_iff]
        intro b hb hpb
        have hpa := hclosed a b (hpairs.1 b hb) hpb
        rw [ha] at hpa
        exact Bool.noConfusion hpa
      rw [List.filter_cons_of_neg (by simp [ha]), hnone, List.length_nil, List.take_zero]

/-- Up to a clean cut all answers hold the same rows. -/
theorem take_perm (htrans : ∀ a b c, before a b → before b c → before a c)
    (h : Answer before table rows) (h' : Answer before table rows') {m : ℕ} {a b : α}
    (ha : rows[m]? = some a) (hb : rows[m + 1]? = some b) (hcut : ¬ before b a)
    (hself : before a a) : (rows'.take (m + 1)).Perm (rows.take (m + 1)) := by
  classical
  have hclosed : ∀ x y, before x y → decide (before y a) = true → decide (before x a) = true := by
    intro x y hxy hy
    exact decide_eq_true (htrans x y a hxy (of_decide_eq_true hy))
  obtain ⟨hm, ham⟩ := List.getElem?_eq_some_iff.mp ha
  obtain ⟨hm', hbm⟩ := List.getElem?_eq_some_iff.mp hb
  have hpairs : ∀ i j (hi : i < rows.length) (hj : j < rows.length), i < j →
      before rows[i] rows[j] := List.pairwise_iff_getElem.mp h.sorted
  have hfirst : (rows.take (m + 1)).filter (fun x => decide (before x a)) = rows.take (m + 1) := by
    rw [List.filter_eq_self]
    intro x hx
    obtain ⟨i, hi, rfl⟩ := List.mem_take_iff_getElem.mp hx
    rcases Nat.lt_or_ge i m with him | him
    · exact decide_eq_true (ham ▸ hpairs i m (by omega) hm him)
    · have him : i = m := by omega
      subst him
      exact decide_eq_true (by rw [ham]; exact hself)
  have hlast : (rows.drop (m + 1)).filter (fun x => decide (before x a)) = [] := by
    rw [List.filter_eq_nil_iff]
    intro x hx hxa
    obtain ⟨i, hi, rfl⟩ := List.mem_drop_iff_getElem.mp hx
    have hxa : before rows[m + 1 + i] a := of_decide_eq_true hxa
    rcases Nat.eq_zero_or_pos i with rfl | hpos
    · exact hcut (hbm ▸ hxa)
    · have hbx : before b rows[m + 1 + i] := hbm ▸ hpairs (m + 1) (m + 1 + i) hm' (by omega)
        (by omega)
      exact hcut (htrans _ _ _ hbx hxa)
  have hrows : rows.filter (fun x => decide (before x a)) = rows.take (m + 1) := by
    conv_lhs => rw [← List.take_append_drop (m + 1) rows]
    rw [List.filter_append, hfirst, hlast, List.append_nil]
  have hperm : (rows'.filter fun x => decide (before x a)).Perm (rows.take (m + 1)) := by
    have hboth := (h'.perm.trans h.perm.symm).filter fun x => decide (before x a)
    rwa [hrows] at hboth
  have hlength : (rows'.filter fun x => decide (before x a)).length = m + 1 := by
    rw [hperm.length_eq, List.length_take, min_eq_left (by omega)]
  have htake := take_filter hclosed h'.sorted
  rw [hlength] at htake
  rwa [htake] at hperm

/-- Clean cuts make the pages of different answers fit. -/
theorem read_perm (hsize : 0 < size) (hself : ∀ a, before a a)
    (htrans : ∀ a b c, before a b → before b c → before a c) (h : Answer before table rows)
    (hclean : CutsClean before size rows) {answers : ℕ → List α}
    (hanswers : ∀ k, Answer before table (answers k)) (n : ℕ) :
    (read size n answers).Perm (rows.take (n * size)) := by
  have hfront : ∀ k j, ((answers j).take (k * size)).Perm (rows.take (k * size)) := by
    intro k j
    have hlength := (hanswers j).length_eq.trans h.length_eq.symm
    cases k with
    | zero => simp
    | succ k =>
      obtain ⟨m, hm⟩ : ∃ m, (k + 1) * size = m + 1 :=
        Nat.exists_eq_succ_of_ne_zero (Nat.mul_pos k.succ_pos hsize).ne'
      have hcut := hclean k
      rw [hm, Nat.add_sub_cancel] at hcut
      rw [hm]
      rcases Nat.lt_or_ge (m + 1) rows.length with hlt | hge
      · have hm : m < rows.length := Nat.lt_of_succ_lt hlt
        have ha : rows[m]? = some rows[m] := List.getElem?_eq_getElem hm
        have hb : rows[m + 1]? = some rows[m + 1] := List.getElem?_eq_getElem hlt
        exact take_perm htrans h (hanswers j) ha hb (hcut _ ha _ hb) (hself _)
      · rw [List.take_of_length_le hge, List.take_of_length_le (hlength.trans_le hge)]
        exact (hanswers j).perm.trans h.perm.symm
  induction n with
  | zero => simp [read]
  | succ n ih =>
    rw [read_succ, ← take_page]
    refine ih.append ?_
    have hboth := hfront (n + 1) n
    rw [← take_page, ← take_page] at hboth
    have hsame := (hfront n n).append_right (slice size n (answers n))
    exact (List.perm_append_left_iff _).mp (hsame.symm.trans hboth)

/-- Two rows with equal sort keys may change places. -/
theorem Answer.swap {front back : List α} {a b : α}
    (h : Answer before table (front ++ a :: b :: back)) (htie : before b a) :
    Answer before table (front ++ b :: a :: back) := by
  constructor
  · exact ((List.Perm.swap a b back).append_left front).trans h.perm
  · have hsorted := h.sorted
    simp only [List.pairwise_append, List.pairwise_cons, List.forall_mem_cons] at hsorted ⊢
    obtain ⟨hfront, ⟨⟨-, ha⟩, hb, hback⟩, hcross⟩ := hsorted
    refine ⟨hfront, ⟨⟨htie, hb⟩, ha, hback⟩, fun x hx => ?_⟩
    obtain ⟨hxa, hxb, hxback⟩ := hcross x hx
    exact ⟨hxb, hxa, hxback⟩

/-- Pages of two answers, of the second one from some page on. -/
theorem read_switch (size k : ℕ) (rows rows' : List α) (j : ℕ) :
    read size (k + j) (fun i => if i < k then rows else rows') =
      rows.take (k * size) ++ (rows'.drop (k * size)).take (j * size) := by
  induction j with
  | zero =>
    rw [Nat.zero_mul, List.take_zero, List.append_nil, Nat.add_zero, ← read_const, read, read]
    refine List.flatMap_congr fun i hi => ?_
    rw [if_pos (List.mem_range.mp hi)]
  | succ j ih =>
    have hlater : ¬ k + j < k := by omega
    have hsplit := take_page size j (rows'.drop (k * size))
    rw [slice, List.drop_drop, ← Nat.add_mul] at hsplit
    rw [← Nat.add_assoc, read_succ, ih, if_neg hlater, List.append_assoc, slice, hsplit]

/-- The pages are the table for every choice of the answers exactly if one
answer, and then every other too, is cut cleanly. -/
theorem read_perm_iff (hsize : 0 < size) (hself : ∀ a, before a a)
    (htrans : ∀ a b c, before a b → before b c → before a c) (hnodup : table.Nodup)
    (h : Answer before table rows) {n : ℕ} (hn : table.length ≤ n * size) :
    (∀ answers : ℕ → List α, (∀ k, Answer before table (answers k)) →
      (read size n answers).Perm table) ↔ CutsClean before size rows := by
  constructor
  · intro hall k a ha b hb htie
    obtain ⟨m, hnext⟩ : ∃ m, (k + 1) * size = m + 1 :=
      Nat.exists_eq_succ_of_ne_zero (Nat.mul_pos k.succ_pos hsize).ne'
    rw [hnext, Nat.add_sub_cancel] at ha
    rw [hnext] at hb
    obtain ⟨hm, ham⟩ := List.getElem?_eq_some_iff.mp ha
    obtain ⟨hm', hbm⟩ := List.getElem?_eq_some_iff.mp hb
    -- the first row after the cut is shown first by the later queries
    have hsplit : rows = rows.take m ++ a :: b :: rows.drop (m + 2) := by
      rw [← hbm, ← List.drop_eq_getElem_cons hm', ← ham, ← List.drop_eq_getElem_cons hm,
        List.take_append_drop]
    have hswap := Answer.swap (hsplit ▸ h) htie
    have hlength : (rows.take m ++ [b]).length = (k + 1) * size := by
      rw [List.length_append, List.length_take, List.length_singleton, min_eq_left (by omega), hnext]
    have hpages : k + 1 ≤ n := by
      rcases Nat.lt_or_ge k n with hk | hk
      · exact hk
      · have hmul := Nat.mul_le_mul_right size hk
        have hcut : k * size + size = m + 1 := (Nat.succ_mul k size).symm.trans hnext
        have hrows := h.length_eq
        omega
    have hanswers : ∀ i, Answer before table
        (if i < k + 1 then rows else rows.take m ++ b :: a :: rows.drop (m + 2)) := by
      intro i
      split
      · exact h
      · exact hswap
    have hread := hall _ hanswers
    obtain ⟨j, rfl⟩ := Nat.exists_eq_add_of_le hpages
    have hrest : (rows.take m ++ b :: a :: rows.drop (m + 2)).drop ((k + 1) * size) =
        a :: rows.drop (m + 2) := by
      rw [List.append_cons, ← hlength, List.drop_left]
    have hfirst : rows.take ((k + 1) * size) = rows.take m ++ [a] := by
      rw [hnext, List.take_add_one, ha, Option.toList_some]
    rw [read_switch, hrest, hfirst] at hread
    have hmem : b ∈ table := h.perm.mem_iff.mp (List.mem_of_getElem? hb)
    have hrows : (rows.take m ++ a :: b :: rows.drop (m + 2)).Nodup :=
      hsplit ▸ h.perm.nodup_iff.mpr hnodup
    rw [List.nodup_append, List.nodup_cons, List.nodup_cons] at hrows
    obtain ⟨-, ⟨hab, hback, -⟩, hfront⟩ := hrows
    have hshown := hread.mem_iff.mpr hmem
    rw [List.append_assoc, List.mem_append, List.mem_append, List.mem_singleton] at hshown
    rcases hshown with hshown | hshown | hshown
    · exact hfront b hshown b (List.mem_cons_of_mem _ List.mem_cons_self) rfl
    · exact hab (hshown ▸ List.mem_cons_self)
    · rcases List.mem_cons.mp (List.mem_of_mem_take hshown) with hshown | hshown
      · exact hab (hshown ▸ List.mem_cons_self)
      · exact hback hshown
  · intro hclean answers hanswers
    have hread := read_perm hsize hself htrans h hclean hanswers n
    rw [List.take_of_length_le (h.length_eq.trans_le hn)] at hread
    exact hread.trans h.perm

end Orders

/-! ## Reading on -/

/-- A page with the number of all pages. -/
structure Page (α : Type) where
  /-- The rows. -/
  items : List α
  /-- The number of pages. -/
  totalPages : ℕ

/-- Ask for page after page up to the last one; none if that takes more
requests than allowed. -/
def follow (serve : ℕ → Except ε (Page α)) : ℕ → ℕ → Option (Except ε (List α))
  | 0, _ => none
  | n + 1, page =>
    match serve page with
    | .error e => some (.error e)
    | .ok p =>
      if page < p.totalPages then
        (follow serve n (page + 1)).map fun rest => rest.map fun items => p.items ++ items
      else some (.ok p.items)

section Follow

variable {serve : ℕ → Except ε (Page α)} {size limit pages : ℕ} {answers : ℕ → List α}
  {refusal : ε}

/-- A list whose pages are all served is read to its end. -/
theorem follow_ok (hserve : ∀ k, k < limit → serve (k + 1) = .ok ⟨slice size k (answers k), pages⟩)
    (hlimit : max 1 pages ≤ limit) {fuel : ℕ} (hfuel : max 1 pages ≤ fuel) :
    follow serve fuel 1 = some (.ok (read size (max 1 pages) answers)) := by
  have hrun : ∀ (j k fuel : ℕ), k + j + 1 = max 1 pages → j < fuel →
      follow serve fuel (k + 1) =
        some (.ok ((List.range' k (j + 1)).flatMap fun i => slice size i (answers i))) := by
    intro j
    induction j with
    | zero =>
      intro k fuel hk hfuel
      obtain ⟨fuel, rfl⟩ := Nat.exists_eq_add_of_lt hfuel
      have hlast : ¬ k + 1 < pages := by omega
      rw [Nat.zero_add, follow, hserve k (by omega)]
      simp only [if_neg hlast, Nat.zero_add, List.range'_one, List.flatMap_singleton]
    | succ j ih =>
      intro k fuel hk hfuel
      cases fuel with
      | zero => exact absurd hfuel (Nat.not_lt_zero _)
      | succ fuel =>
        have hmore : k + 1 < pages := by omega
        rw [follow, hserve k (by omega)]
        simp only [if_pos hmore, ih (k + 1) fuel (by omega) (by omega), Option.map_some]
        rw [List.range'_succ (n := j + 1), List.flatMap_cons]
        rfl
  have hall := hrun (max 1 pages - 1) 0 fuel (by omega) (by omega)
  rw [Nat.sub_add_cancel (le_max_left 1 pages)] at hall
  rw [hall, read, List.range_eq_range']

/-- A list with more pages than are served is refused at the first page that is not. -/
theorem follow_error (hserve : ∀ k, k < limit → serve (k + 1) = .ok ⟨slice size k (answers k), pages⟩)
    (hrefuse : serve (limit + 1) = .error refusal) (hlimit : limit < max 1 pages)
    {fuel : ℕ} (hfuel : max 1 pages ≤ fuel) :
    follow serve fuel 1 = some (.error refusal) := by
  have hrun : ∀ (j k fuel : ℕ), k + j = limit → j < fuel →
      follow serve fuel (k + 1) = some (.error refusal) := by
    intro j
    induction j with
    | zero =>
      intro k fuel hk hfuel
      have hk : k = limit := by omega
      subst hk
      cases fuel with
      | zero => exact absurd hfuel (Nat.not_lt_zero _)
      | succ fuel =>
        rw [follow, hrefuse]
    | succ j ih =>
      intro k fuel hk hfuel
      cases fuel with
      | zero => exact absurd hfuel (Nat.not_lt_zero _)
      | succ fuel =>
        have hmore : k + 1 < pages := by omega
        rw [follow, hserve k (by omega)]
        simp only [if_pos hmore, ih (k + 1) fuel (by omega) (by omega), Option.map_some]
        rfl
  exact hrun limit 0 fuel (by omega) (by omega)

end Follow

end Munavvar.OffsetPages
