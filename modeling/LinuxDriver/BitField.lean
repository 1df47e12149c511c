import Mathlib

/-!
# Bit fields of a word

A word that is put together from fields is written in C as a disjunction of the fields, each masked
to its width and shifted to its place. If the fields lie next to each other, the word is a number in
a mixed radix, and the fields are read back one by one, each without what did not fit its width.

## Main definitions

* `bits`: one field masked and shifted.
* `orFields`, `packFields`: the disjunction of fields that lie next to each other, and the number.
* `unpackFields`: the fields of a word.

## Main results

* `orFields_eq`: the disjunction is the number.
* `unpackFields_packFields`: the fields read back.
-/

namespace LinuxDriver

/-- The lowest bits of a value, `width` of them, at the bit `shift` of a word. -/
def bits (width shift value : ℕ) : ℕ := (value &&& (2 ^ width - 1)) <<< shift

/-- The disjunction of a word and of fields, by width and value, from the bit `shift` on. -/
def orFields : ℕ → ℕ → List (ℕ × ℕ) → ℕ
  | word, _, [] => word
  | word, shift, (width, value) :: l => orFields (word ||| bits width shift value) (shift + width) l

/-- The number of the fields. -/
def packFields : List (ℕ × ℕ) → ℕ
  | [] => 0
  | (width, value) :: l => value % 2 ^ width + 2 ^ width * packFields l

/-- The fields of a word, by their widths. -/
def unpackFields : List ℕ → ℕ → List ℕ
  | [], _ => []
  | width :: widths, word => word % 2 ^ width :: unpackFields widths (word / 2 ^ width)

theorem bits_eq (width shift value : ℕ) :
    bits width shift value = 2 ^ shift * (value % 2 ^ width) := by
  rw [bits, Nat.and_two_pow_sub_one_eq_mod, Nat.shiftLeft_eq, Nat.mul_comm]

@[simp] theorem bits_zero (width shift : ℕ) : bits width shift 0 = 0 := by
  rw [bits_eq, Nat.zero_mod, Nat.mul_zero]

/-- A field is added to a word that is below it. -/
theorem lor_bits {word shift : ℕ} (h : word < 2 ^ shift) (width value : ℕ) :
    word ||| bits width shift value = word + 2 ^ shift * (value % 2 ^ width) := by
  rw [bits_eq, Nat.lor_comm, ← Nat.two_pow_add_eq_or_of_lt h, Nat.add_comm]

theorem lor_bits_lt {word shift : ℕ} (h : word < 2 ^ shift) (width value : ℕ) :
    word ||| bits width shift value < 2 ^ (shift + width) := by
  have hfield : value % 2 ^ width < 2 ^ width := Nat.mod_lt _ (Nat.two_pow_pos width)
  have hmul : 2 ^ shift * (value % 2 ^ width + 1) ≤ 2 ^ shift * 2 ^ width :=
    Nat.mul_le_mul_left _ hfield
  rw [lor_bits h, Nat.pow_add]
  rw [Nat.mul_succ] at hmul
  omega

/-- **Fields next to each other.** Their disjunction is their number. -/
theorem orFields_eq {word shift : ℕ} (h : word < 2 ^ shift) (l : List (ℕ × ℕ)) :
    orFields word shift l = word + 2 ^ shift * packFields l := by
  induction l generalizing word shift with
  | nil => rw [orFields, packFields, Nat.mul_zero, Nat.add_zero]
  | cons f l ih =>
    obtain ⟨width, value⟩ := f
    rw [orFields, ih (lor_bits_lt h width value), lor_bits h, packFields, Nat.pow_add]
    ring

theorem orFields_zero (l : List (ℕ × ℕ)) : orFields 0 0 l = packFields l := by
  rw [orFields_eq Nat.one_pos, Nat.pow_zero, Nat.one_mul, Nat.zero_add]

theorem packFields_lt (l : List (ℕ × ℕ)) : packFields l < 2 ^ (l.map Prod.fst).sum := by
  induction l with
  | nil => exact Nat.one_pos
  | cons f l ih =>
    obtain ⟨width, value⟩ := f
    have hfield : value % 2 ^ width < 2 ^ width := Nat.mod_lt _ (Nat.two_pow_pos width)
    have hmul : 2 ^ width * (packFields l + 1) ≤ 2 ^ width * 2 ^ (l.map Prod.fst).sum :=
      Nat.mul_le_mul_left _ ih
    rw [Nat.mul_succ] at hmul
    simp only [List.map_cons, List.sum_cons, Nat.pow_add, packFields]
    omega

/-- **Round trip.** Each field is read back without what did not fit its width. -/
theorem unpackFields_packFields (l : List (ℕ × ℕ)) :
    unpackFields (l.map Prod.fst) (packFields l) = l.map fun f => f.2 % 2 ^ f.1 := by
  induction l with
  | nil => rfl
  | cons f l ih =>
    obtain ⟨width, value⟩ := f
    have hfield : value % 2 ^ width < 2 ^ width := Nat.mod_lt _ (Nat.two_pow_pos width)
    rw [List.map_cons, unpackFields, packFields, List.map_cons, Nat.add_mul_mod_self_left,
      Nat.mod_mod, Nat.add_mul_div_left _ _ (Nat.two_pow_pos width), Nat.div_eq_of_lt hfield,
      Nat.zero_add, ih]

end LinuxDriver
