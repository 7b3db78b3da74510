import Mathlib.Algebra.GroupWithZero.Nat
import Mathlib.Data.List.Chain
import Mathlib.Data.Int.Order.Basic

/-!
# Consecutive intervals

Intervals of integers, each of which begins right after the one before. A
number between the first and the last lies in exactly one of them.
-/

namespace Munavvar.Intervals

variable {β : Type} {lo hi : β → ℤ} {b b' : β} {bs : List β} {d : ℤ}

/-- Each interval begins right after the one before. -/
def Consecutive (lo hi : β → ℤ) (bs : List β) : Prop := bs.IsChain fun b b' => lo b' = hi b + 1

/-- A number lies in an interval. -/
def Within (lo hi : β → ℤ) (b : β) (d : ℤ) : Prop := lo b ≤ d ∧ d ≤ hi b

/-- Every interval lies beyond the first one. -/
theorem Consecutive.beyond_head (h : Consecutive lo hi (b :: bs))
    (hle : ∀ b' ∈ bs, lo b' ≤ hi b') : ∀ b' ∈ bs, hi b < lo b' := by
  induction bs generalizing b with
  | nil => exact fun b' hb' => absurd hb' List.not_mem_nil
  | cons c bs ih =>
    obtain ⟨hnext, hrest⟩ := List.isChain_cons_cons.mp h
    intro b' hb'
    rcases List.mem_cons.mp hb' with rfl | hb'
    · omega
    · have hlater := ih hrest (fun x hx => hle x (List.mem_cons_of_mem c hx)) b' hb'
      have hc := hle c List.mem_cons_self
      omega

/-- No number lies in two of the intervals. -/
theorem Consecutive.unique (h : Consecutive lo hi bs) (hle : ∀ b ∈ bs, lo b ≤ hi b) (hb : b ∈ bs)
    (hb' : b' ∈ bs) (hd : Within lo hi b d) (hd' : Within lo hi b' d) : b = b' := by
  induction bs with
  | nil => exact absurd hb List.not_mem_nil
  | cons c bs ih =>
    have hrest : ∀ x ∈ bs, lo x ≤ hi x := fun x hx => hle x (List.mem_cons_of_mem c hx)
    have hbeyond := h.beyond_head hrest
    rcases List.mem_cons.mp hb with hfirst | hlater
    · rcases List.mem_cons.mp hb' with hfirst' | hlater'
      · exact hfirst.trans hfirst'.symm
      · have hlower := hbeyond b' hlater'
        rw [hfirst] at hd
        have hupper := hd.2
        have hd' := hd'.1
        omega
    · rcases List.mem_cons.mp hb' with hfirst' | hlater'
      · have hlower := hbeyond b hlater
        rw [hfirst'] at hd'
        have hupper := hd'.2
        have hd := hd.1
        omega
      · exact ih h.tail hrest hlater hlater'

/-- Every number between the first and the last interval lies in one. -/
theorem Consecutive.covers (h : Consecutive lo hi bs) {first last : β} (hfirst : bs.head? = some first)
    (hlast : bs.getLast? = some last) (hlo : lo first ≤ d) (hhi : d ≤ hi last) :
    ∃ b ∈ bs, Within lo hi b d := by
  induction bs generalizing first with
  | nil => cases hfirst
  | cons c bs ih =>
    rw [List.head?_cons, Option.some.injEq] at hfirst
    subst hfirst
    by_cases hd : d ≤ hi c
    · exact ⟨c, List.mem_cons_self, hlo, hd⟩
    · cases bs with
      | nil =>
        rw [List.getLast?_singleton, Option.some.injEq] at hlast
        rw [hlast] at hd
        exact absurd hhi hd
      | cons c' bs =>
        obtain ⟨hnext, hrest⟩ := List.isChain_cons_cons.mp h
        have hlo' : lo c' ≤ d := by omega
        rw [List.getLast?_cons_cons] at hlast
        obtain ⟨b, hb, hwithin⟩ := ih hrest rfl hlast hlo'
        exact ⟨b, List.mem_cons_of_mem c hb, hwithin⟩

/-- A sum of ones over the intervals in which a number between the first and
the last one lies is one. -/
theorem Consecutive.sum_eq_one (h : Consecutive lo hi bs) (hle : ∀ b ∈ bs, lo b ≤ hi b)
    {first last : β} (hfirst : bs.head? = some first) (hlast : bs.getLast? = some last)
    (hlo : lo first ≤ d) (hhi : d ≤ hi last) {f : β → ℕ}
    (hf : ∀ b ∈ bs, f b = if lo b ≤ d ∧ d ≤ hi b then 1 else 0) : (bs.map f).sum = 1 := by
  induction bs generalizing first with
  | nil => cases hfirst
  | cons c bs ih =>
    rw [List.head?_cons, Option.some.injEq] at hfirst
    subst hfirst
    have hrest : ∀ x ∈ bs, lo x ≤ hi x := fun x hx => hle x (List.mem_cons_of_mem c hx)
    have hfrest : ∀ x ∈ bs, f x = if lo x ≤ d ∧ d ≤ hi x then 1 else 0 :=
      fun x hx => hf x (List.mem_cons_of_mem c hx)
    rw [List.map_cons, List.sum_cons, hf c List.mem_cons_self]
    by_cases hd : d ≤ hi c
    · rw [if_pos ⟨hlo, hd⟩]
      have hzero : (bs.map f).sum = 0 := by
        rw [List.sum_eq_zero_iff_forall_eq_nat]
        intro n hn
        obtain ⟨b, hb, rfl⟩ := List.mem_map.mp hn
        have hbeyond := h.beyond_head hrest b hb
        rw [hfrest b hb, if_neg (by omega)]
      omega
    · rw [if_neg (by omega)]
      cases bs with
      | nil =>
        rw [List.getLast?_singleton, Option.some.injEq] at hlast
        rw [hlast] at hd
        exact absurd hhi hd
      | cons c' bs =>
        obtain ⟨hnext, hchain⟩ := List.isChain_cons_cons.mp h
        rw [List.getLast?_cons_cons] at hlast
        have hone := ih hchain hrest rfl hlast (by omega) hfrest
        omega

end Munavvar.Intervals
