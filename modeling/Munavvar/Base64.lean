import Mathlib.Data.List.DropRight

/-!
# Base64 text

Three bytes are written with four digits of six bits each, and a shorter last
group is padded. The text is safe in addresses: its last two digits are `-` and
`_`. A reader skips the characters that are no digits and stops at the padding
that ends a group. The padding can be left away and put back.
-/

namespace Munavvar.Base64

/-- The digits of six bits. -/
def alphabet : List Char :=
  ['A', 'B', 'C', 'D', 'E', 'F', 'G', 'H', 'I', 'J', 'K', 'L', 'M', 'N', 'O', 'P', 'Q', 'R', 'S',
    'T', 'U', 'V', 'W', 'X', 'Y', 'Z', 'a', 'b', 'c', 'd', 'e', 'f', 'g', 'h', 'i', 'j', 'k', 'l',
    'm', 'n', 'o', 'p', 'q', 'r', 's', 't', 'u', 'v', 'w', 'x', 'y', 'z', '0', '1', '2', '3', '4',
    '5', '6', '7', '8', '9', '-', '_']

/-- The character of a digit. -/
def digitChar (d : ℕ) : Char := alphabet.getD d '='

/-- The digit of a character; the last two digits are read in both alphabets. -/
def digit? (c : Char) : Option ℕ :=
  if c = '+' then some 62 else if c = '/' then some 63 else alphabet.idxOf? c

/-- Write bytes as text. -/
def encode : List UInt8 → List Char
  | [] => []
  | [a] => [digitChar (a.toNat / 4), digitChar (a.toNat % 4 * 16), '=', '=']
  | [a, b] =>
    [digitChar (a.toNat / 4), digitChar (a.toNat % 4 * 16 + b.toNat / 16),
      digitChar (b.toNat % 16 * 4), '=']
  | a :: b :: c :: rest =>
    digitChar (a.toNat / 4) :: digitChar (a.toNat % 4 * 16 + b.toNat / 16) ::
      digitChar (b.toNat % 16 * 4 + c.toNat / 64) :: digitChar (c.toNat % 64) :: encode rest

/-- Read text from a position in a group of four digits, with the bits that no
byte has got yet and the number of padding characters since the last digit. -/
def decodeFrom : ℕ → ℕ → ℕ → List Char → Option (List UInt8)
  | pos, _, _, [] => if pos = 0 then some [] else none
  | pos, left, pads, c :: rest =>
    if c = '=' then
      -- padding before the third digit of a group is skipped
      if pos < 2 then decodeFrom pos left pads rest
      else if 4 ≤ pos + (pads + 1) then some []
      else decodeFrom pos left (pads + 1) rest
    else
      match digit? c with
      | none => decodeFrom pos left pads rest
      | some d =>
        match pos with
        | 0 => decodeFrom 1 d 0 rest
        | 1 => (decodeFrom 2 (d % 16) 0 rest).map (UInt8.ofNat (left * 4 + d / 16) :: ·)
        | 2 => (decodeFrom 3 (d % 4) 0 rest).map (UInt8.ofNat (left * 16 + d / 4) :: ·)
        | _ => (decodeFrom 0 0 0 rest).map (UInt8.ofNat (left * 64 + d) :: ·)

/-- Read text as bytes. -/
def decode (text : List Char) : Option (List UInt8) := decodeFrom 0 0 0 text

/-- Text without its padding. -/
def strip (text : List Char) : List Char := text.rdropWhile (· = '=')

/-- Text with padding up to a whole number of groups. -/
def padded (text : List Char) : List Char :=
  text ++ List.replicate ((4 - text.length % 4) % 4) '='

/-! ## Reading what was written -/

@[simp] theorem digit?_digitChar {d : ℕ} (h : d < 64) : digit? (digitChar d) = some d := by
  have hall : ∀ d : Fin 64, digit? (digitChar d) = some d.val := by decide
  exact hall ⟨d, h⟩

theorem digitChar_ne_pad {d : ℕ} (h : d < 64) : digitChar d ≠ '=' := by
  have hall : ∀ d : Fin 64, digitChar d ≠ '=' := by decide
  exact hall ⟨d, h⟩

section Groups

variable {d left pads : ℕ} {rest : List Char}

theorem decodeFrom_zero (h : d < 64) :
    decodeFrom 0 left pads (digitChar d :: rest) = decodeFrom 1 d 0 rest := by
  rw [decodeFrom, if_neg (digitChar_ne_pad h), digit?_digitChar h]
  rfl

theorem decodeFrom_one (h : d < 64) :
    decodeFrom 1 left pads (digitChar d :: rest) =
      (decodeFrom 2 (d % 16) 0 rest).map (UInt8.ofNat (left * 4 + d / 16) :: ·) := by
  rw [decodeFrom, if_neg (digitChar_ne_pad h), digit?_digitChar h]
  rfl

theorem decodeFrom_two (h : d < 64) :
    decodeFrom 2 left pads (digitChar d :: rest) =
      (decodeFrom 3 (d % 4) 0 rest).map (UInt8.ofNat (left * 16 + d / 4) :: ·) := by
  rw [decodeFrom, if_neg (digitChar_ne_pad h), digit?_digitChar h]
  rfl

theorem decodeFrom_three (h : d < 64) :
    decodeFrom 3 left pads (digitChar d :: rest) =
      (decodeFrom 0 0 0 rest).map (UInt8.ofNat (left * 64 + d) :: ·) := by
  rw [decodeFrom, if_neg (digitChar_ne_pad h), digit?_digitChar h]
  rfl

end Groups

/-- The first byte of a group is put together again. -/
theorem first_byte (a : UInt8) {n : ℕ} (h : n < 16) :
    UInt8.ofNat (a.toNat / 4 * 4 + (a.toNat % 4 * 16 + n) / 16) = a := by
  have hsum : a.toNat / 4 * 4 + (a.toNat % 4 * 16 + n) / 16 = a.toNat := by omega
  rw [hsum, UInt8.ofNat_toNat]

/-- The second byte of a group is put together again. -/
theorem second_byte (a b : UInt8) {n : ℕ} (h : n < 4) :
    UInt8.ofNat ((a.toNat % 4 * 16 + b.toNat / 16) % 16 * 16 + (b.toNat % 16 * 4 + n) / 4) = b := by
  have hb := b.toNat_lt
  have hsum : (a.toNat % 4 * 16 + b.toNat / 16) % 16 * 16 + (b.toNat % 16 * 4 + n) / 4 =
      b.toNat := by omega
  rw [hsum, UInt8.ofNat_toNat]

/-- The third byte of a group is put together again. -/
theorem third_byte (b c : UInt8) :
    UInt8.ofNat ((b.toNat % 16 * 4 + c.toNat / 64) % 4 * 64 + c.toNat % 64) = c := by
  have hc := c.toNat_lt
  have hsum : (b.toNat % 16 * 4 + c.toNat / 64) % 4 * 64 + c.toNat % 64 = c.toNat := by omega
  rw [hsum, UInt8.ofNat_toNat]

theorem decode_encode (bytes : List UInt8) : decode (encode bytes) = some bytes := by
  induction bytes using encode.induct with
  | case1 => rfl
  | case2 a =>
    have ha := a.toNat_lt
    have hfirst := first_byte a (n := 0) (by omega)
    rw [decode, encode, decodeFrom_zero (by omega), decodeFrom_one (by omega)]
    simpa [decodeFrom] using hfirst
  | case3 a b =>
    have ha := a.toNat_lt
    have hb := b.toNat_lt
    have hfirst := first_byte a (n := b.toNat / 16) (by omega)
    have hsecond := second_byte a b (n := 0) (by omega)
    rw [decode, encode, decodeFrom_zero (by omega), decodeFrom_one (by omega),
      decodeFrom_two (by omega), hfirst]
    simpa [decodeFrom] using hsecond
  | case4 a b c rest ih =>
    have ha := a.toNat_lt
    have hb := b.toNat_lt
    have hc := c.toNat_lt
    have hfirst := first_byte a (n := b.toNat / 16) (by omega)
    have hsecond := second_byte a b (n := c.toNat / 64) (by omega)
    rw [decode] at ih ⊢
    rw [encode, decodeFrom_zero (by omega), decodeFrom_one (by omega), decodeFrom_two (by omega),
      decodeFrom_three (by omega), ih, hfirst, hsecond, third_byte]
    rfl

/-! ## Text without its padding -/

/-- Written text is digits and then padding up to a whole number of groups. -/
theorem encode_shape (bytes : List UInt8) :
    ∃ digits n, encode bytes = digits ++ List.replicate n '=' ∧ '=' ∉ digits ∧
      n < 4 ∧ (digits.length + n) % 4 = 0 := by
  induction bytes using encode.induct with
  | case1 => exact ⟨[], 0, rfl, List.not_mem_nil, by decide, rfl⟩
  | case2 a =>
    have ha := a.toNat_lt
    have hone := digitChar_ne_pad (d := a.toNat / 4) (by omega)
    have htwo := digitChar_ne_pad (d := a.toNat % 4 * 16) (by omega)
    refine ⟨[_, _], 2, rfl, ?_, by decide, by simp⟩
    simp [hone.symm, htwo.symm]
  | case3 a b =>
    have ha := a.toNat_lt
    have hb := b.toNat_lt
    have hone := digitChar_ne_pad (d := a.toNat / 4) (by omega)
    have htwo := digitChar_ne_pad (d := a.toNat % 4 * 16 + b.toNat / 16) (by omega)
    have hthree := digitChar_ne_pad (d := b.toNat % 16 * 4) (by omega)
    refine ⟨[_, _, _], 1, rfl, ?_, by decide, by simp⟩
    simp [hone.symm, htwo.symm, hthree.symm]
  | case4 a b c rest ih =>
    obtain ⟨digits, n, heq, hmem, hn, hlength⟩ := ih
    have ha := a.toNat_lt
    have hb := b.toNat_lt
    have hc := c.toNat_lt
    have hone := digitChar_ne_pad (d := a.toNat / 4) (by omega)
    have htwo := digitChar_ne_pad (d := a.toNat % 4 * 16 + b.toNat / 16) (by omega)
    have hthree := digitChar_ne_pad (d := b.toNat % 16 * 4 + c.toNat / 64) (by omega)
    have hfour := digitChar_ne_pad (d := c.toNat % 64) (by omega)
    refine ⟨_ :: _ :: _ :: _ :: digits, n, by rw [encode, heq]; rfl, ?_, hn, ?_⟩
    · simp [hone.symm, htwo.symm, hthree.symm, hfour.symm, hmem]
    · rw [List.length_cons, List.length_cons, List.length_cons, List.length_cons]
      omega

/-- Padding in front of which a digit stands is stripped. -/
theorem strip_append {digits : List Char} (h : '=' ∉ digits) (n : ℕ) :
    strip (digits ++ List.replicate n '=') = digits := by
  induction n with
  | zero =>
    rw [List.replicate_zero, List.append_nil, strip, List.rdropWhile_eq_self_iff]
    intro hne hlast
    have hpad : digits.getLast hne = '=' := by simpa using hlast
    exact h (hpad ▸ List.getLast_mem hne)
  | succ n ih =>
    rw [List.replicate_succ', ← List.append_assoc, strip, List.rdropWhile_concat_pos _ _ _ (by simp)]
    exact ih

/-- The padding that was left away is put back. -/
theorem padded_strip (bytes : List UInt8) : padded (strip (encode bytes)) = encode bytes := by
  obtain ⟨digits, n, heq, hmem, hn, hlength⟩ := encode_shape bytes
  have hpads : (4 - digits.length % 4) % 4 = n := by omega
  rw [heq, strip_append hmem, padded, hpads]

theorem decode_padded_strip (bytes : List UInt8) :
    decode (padded (strip (encode bytes))) = some bytes := by
  rw [padded_strip, decode_encode]

end Munavvar.Base64
