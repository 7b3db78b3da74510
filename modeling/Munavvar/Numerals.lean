import Mathlib.Data.Nat.Notation
import Mathlib.Algebra.Order.Group.Nat
import Mathlib.Tactic.NormNum.Basic

/-!
# Numbers in text

Numbers are written with a fixed number of digits in a base up to sixteen, and
what is written is read back, also in front of other text. Text is cut at a
separator, and a separator is put between groups of digits and taken out again.
-/

namespace Munavvar.Numerals

variable {b w n : ℕ}

/-! ## Digits -/

/-- A digit below the base; letters are read in both cases. -/
def digit? (b : ℕ) (c : Char) : Option ℕ :=
  (List.range b).find? fun d => c = d.digitChar || c = d.digitChar.toUpper

/-- The last digits of a number, as many as given. -/
def write (b : ℕ) : ℕ → ℕ → List Char
  | 0, _ => []
  | w + 1, n => write b w (n / b) ++ [(n % b).digitChar]

/-- The number that digits stand for, after a number in front of them. -/
def readFrom (b : ℕ) : ℕ → List Char → Option ℕ
  | n, [] => some n
  | n, c :: rest => (digit? b c).bind fun d => readFrom b (n * b + d) rest

/-- The number that digits stand for. -/
def read (b : ℕ) (text : List Char) : Option ℕ := readFrom b 0 text

/-- The number in a field of fixed width, with the text after it. -/
def field (b w : ℕ) (text : List Char) : Option (ℕ × List Char) :=
  if text.length < w then none else (read b (text.take w)).map fun n => (n, text.drop w)

/-- The text after a character. -/
def literal (c : Char) : List Char → Option (List Char)
  | [] => none
  | d :: rest => if d = c then some rest else none

@[simp] theorem length_write : (write b w n).length = w := by
  induction w generalizing n with
  | zero => rfl
  | succ w ih => rw [write, List.length_append, ih, List.length_singleton]

theorem digit?_digitChar {d : ℕ} (hb : b ≤ 16) (h : d < b) : digit? b d.digitChar = some d := by
  have hall : ∀ b : Fin 17, ∀ d : Fin b.val, digit? b.val d.val.digitChar = some d.val := by decide
  exact hall ⟨b, by omega⟩ ⟨d, h⟩

/-- Written digits are digits below the base. -/
theorem mem_write {c : Char} (hb : 0 < b) (h : c ∈ write b w n) : ∃ d < b, c = d.digitChar := by
  induction w generalizing n with
  | zero => exact absurd h List.not_mem_nil
  | succ w ih =>
    rw [write, List.mem_append, List.mem_singleton] at h
    rcases h with h | h
    · exact ih h
    · exact ⟨n % b, Nat.mod_lt n hb, h⟩

theorem readFrom_append {m : ℕ} (l l' : List Char) :
    readFrom b m (l ++ l') = (readFrom b m l).bind fun k => readFrom b k l' := by
  induction l generalizing m with
  | nil => rfl
  | cons c l ih =>
    rw [List.cons_append, readFrom, readFrom]
    cases digit? b c with
    | none => rfl
    | some d => exact ih

/-- What is written with enough digits is read back. -/
theorem read_write (hb : 2 ≤ b) (hb' : b ≤ 16) (h : n < b ^ w) : read b (write b w n) = some n := by
  induction w generalizing n with
  | zero =>
    have hn : n = 0 := by simpa using h
    rw [hn]
    rfl
  | succ w ih =>
    have hdiv : n / b < b ^ w := Nat.div_lt_of_lt_mul (by rwa [Nat.mul_comm, ← Nat.pow_succ])
    have hmod : n % b < b := Nat.mod_lt n (by omega)
    have hfront := ih hdiv
    rw [read] at hfront ⊢
    rw [write, readFrom_append, hfront, Option.bind_some, readFrom, digit?_digitChar hb' hmod]
    rw [Option.bind_some, readFrom, Nat.div_add_mod']

theorem field_append (hb : 2 ≤ b) (hb' : b ≤ 16) (h : n < b ^ w) (rest : List Char) :
    field b w (write b w n ++ rest) = some (n, rest) := by
  have hlength : ¬ (write b w n ++ rest).length < w := by
    rw [List.length_append, length_write]
    omega
  have htake : (write b w n ++ rest).take w = write b w n := List.take_left' length_write
  have hdrop : (write b w n ++ rest).drop w = rest := List.drop_left' length_write
  rw [field, if_neg hlength, htake, hdrop, read_write hb hb' h]
  rfl

@[simp] theorem literal_cons (c : Char) (rest : List Char) : literal c (c :: rest) = some rest := by
  rw [literal, if_pos rfl]

/-- The digits of a number without leading zeros are read back. -/
theorem read_toDigits (hb : 1 < b) (hb' : b ≤ 16) (n : ℕ) : read b (Nat.toDigits b n) = some n := by
  induction n using Nat.strong_induction_on with
  | _ n ih =>
    rw [Nat.toDigits_eq_if hb]
    by_cases hn : n < b
    · rw [if_pos hn, read, readFrom, digit?_digitChar hb' hn, Option.bind_some, Nat.zero_mul,
        Nat.zero_add]
      rfl
    · have hfront := ih (n / b) (Nat.div_lt_self (by omega) hb)
      have hmod : n % b < b := Nat.mod_lt n (by omega)
      rw [read] at hfront ⊢
      rw [if_neg hn, readFrom_append, hfront, Option.bind_some, readFrom, digit?_digitChar hb' hmod,
        Option.bind_some, readFrom, Nat.div_add_mod']

/-! ## Separators -/

/-- Text cut at a separator, at most as often as given. -/
def split (sep : Char) : ℕ → List Char → List (List Char)
  | 0, text => [text]
  | k + 1, text =>
    if sep ∈ text then
      text.takeWhile (· ≠ sep) :: split sep k (text.dropWhile (· ≠ sep)).tail
    else [text]

/-- Text in groups of the given lengths, with a separator between them. -/
def grouped (sep : Char) : List ℕ → List Char → List Char
  | [], text => text
  | k :: ks, text => text.take k ++ sep :: grouped sep ks (text.drop k)

variable {sep : Char}

theorem split_append {k : ℕ} {part : List Char} (h : sep ∉ part) (rest : List Char) :
    split sep (k + 1) (part ++ sep :: rest) = part :: split sep k rest := by
  have hpart : ∀ c ∈ part, decide (c ≠ sep) = true := by
    intro c hc
    have hne : c ≠ sep := fun heq => h (heq ▸ hc)
    simpa using hne
  have htake : (part ++ sep :: rest).takeWhile (· ≠ sep) = part := by
    rw [List.takeWhile_append_of_pos hpart]
    simp
  have hdrop : (part ++ sep :: rest).dropWhile (· ≠ sep) = sep :: rest := by
    rw [List.dropWhile_append_of_pos hpart]
    simp
  have hmem : sep ∈ part ++ sep :: rest := by simp
  rw [split, if_pos hmem, htake, hdrop, List.tail_cons]

/-- Taking the separators out gives the text back. -/
theorem filter_grouped {text : List Char} (ks : List ℕ) (h : sep ∉ text) :
    (grouped sep ks text).filter (· ≠ sep) = text := by
  induction ks generalizing text with
  | nil =>
    rw [grouped, List.filter_eq_self]
    intro c hc
    have hne : c ≠ sep := fun heq => h (heq ▸ hc)
    simpa using hne
  | cons k ks ih =>
    have htake : (text.take k).filter (· ≠ sep) = text.take k := by
      rw [List.filter_eq_self]
      intro c hc
      have hne : c ≠ sep := fun heq => h (heq ▸ List.mem_of_mem_take hc)
      simpa using hne
    have hdrop : sep ∉ text.drop k := fun hmem => h (List.mem_of_mem_drop hmem)
    rw [grouped, List.filter_append, htake, List.filter_cons_of_neg (by simp), ih hdrop,
      List.take_append_drop]

/-- Grouped text has no characters but those of the text and the separator. -/
theorem mem_grouped {c : Char} {ks : List ℕ} {text : List Char} (h : c ∈ grouped sep ks text) :
    c ∈ text ∨ c = sep := by
  induction ks generalizing text with
  | nil => exact .inl h
  | cons k ks ih =>
    rw [grouped, List.mem_append, List.mem_cons] at h
    rcases h with h | h | h
    · exact .inl (List.mem_of_mem_take h)
    · exact .inr h
    · exact (ih h).imp_left List.mem_of_mem_drop

end Munavvar.Numerals
