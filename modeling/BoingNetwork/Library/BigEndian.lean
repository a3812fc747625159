import Mathlib.Data.Nat.Size
import Mathlib.Tactic.LinearCombination
import Mathlib.Tactic.Ring

/-!
# Big-endian byte strings as numbers

Arithmetic on byte strings whose first byte is the most significant one.  A loop from the
last byte to the first with a carry computes the sum of the weights of its positions; that
covers addition, subtraction and doubling.  Bits are counted from the most significant one.
-/

namespace BigEndian

def value : List UInt8 → ℕ
  | [] => 0
  | byte :: bytes => byte.toNat * 256 ^ bytes.length + value bytes

theorem value_lt (bytes : List UInt8) : value bytes < 256 ^ bytes.length := by
  induction bytes with
  | nil => simp [value]
  | cons byte bytes ih =>
    have small : byte.toNat + 1 ≤ 256 := byte.toNat_lt
    calc value (byte :: bytes) < (byte.toNat + 1) * 256 ^ bytes.length := by
          rw [value, Nat.add_one_mul]
          omega
      _ ≤ 256 * 256 ^ bytes.length := Nat.mul_le_mul_right _ small
      _ = 256 ^ (byte :: bytes).length := by rw [List.length_cons, Nat.pow_succ, Nat.mul_comm]

theorem value_append (left right : List UInt8) :
    value (left ++ right) = value left * 256 ^ right.length + value right := by
  induction left with
  | nil => simp [value]
  | cons byte left ih =>
    rw [List.cons_append, value, value, ih, List.length_append, Nat.pow_add]
    ring

variable {bytes right left : List UInt8} (factor : ℤ) (count : ℕ) {index : ℕ}

theorem value_drop {count : ℕ} (enough : count ≤ bytes.length) :
    value (bytes.drop (bytes.length - count)) = value bytes % 256 ^ count := by
  have length : (bytes.drop (bytes.length - count)).length = count := by
    rw [List.length_drop]
    omega
  have below := value_lt (bytes.drop (bytes.length - count))
  rw [length] at below
  conv_rhs => rw [← List.take_append_drop (bytes.length - count) bytes, value_append, length,
    Nat.mul_add_mod_self_right, Nat.mod_eq_of_lt below]

/-- The low bytes of a number. -/
def fixed (width number : ℕ) : List UInt8 :=
  (List.range width).map fun index => UInt8.ofNat (number >>> (8 * (width - 1 - index)))

theorem length_fixed (width number : ℕ) : (fixed width number).length = width := by
  rw [fixed, List.length_map, List.length_range]

theorem fixed_succ (width number : ℕ) :
    fixed (width + 1) number = fixed width (number / 256) ++ [UInt8.ofNat number] := by
  rw [fixed, List.range_succ, List.map_append, fixed]
  congr 1
  · apply List.map_congr_left
    intro index inRange
    have place : 8 * (width + 1 - 1 - index) = 8 + 8 * (width - 1 - index) := by
      have := List.mem_range.mp inRange
      omega
    rw [place, Nat.shiftRight_add, Nat.shiftRight_eq_div_pow number]
  · rw [List.map_singleton, Nat.add_sub_cancel, Nat.sub_self, Nat.mul_zero, Nat.shiftRight_zero]

theorem value_fixed (width number : ℕ) : value (fixed width number) = number % 256 ^ width := by
  induction width generalizing number with
  | zero => rw [Nat.pow_zero, Nat.mod_one]; rfl
  | succ width ih =>
    have last : value [UInt8.ofNat number] = number % 256 := by
      rw [value, value, List.length_nil, Nat.pow_zero, Nat.mul_one, Nat.add_zero,
        UInt8.toNat_ofNat']
    rw [fixed_succ, value_append, ih, last, List.length_singleton, Nat.pow_one,
      Nat.pow_succ, Nat.mul_comm (256 ^ width), Nat.mod_mul, Nat.add_comm, Nat.mul_comm 256]

theorem value_replicate_zero : value (List.replicate count 0) = 0 := by
  induction count with
  | zero => rfl
  | succ count ih =>
    rw [List.replicate_succ, value, ih, UInt8.toNat_zero, Nat.zero_mul]

theorem value_replicate_max : value (List.replicate count 255) + 1 = 256 ^ count := by
  induction count with
  | zero => rfl
  | succ count ih =>
    have byte : (255 : UInt8).toNat = 255 := rfl
    rw [List.replicate_succ, value, List.length_replicate, byte, Nat.add_assoc, ih, Nat.pow_succ]
    ring

theorem compare_toNat (left right : UInt8) :
    compare left right = compare left.toNat right.toNat := by
  simp only [compare, compareOfLessAndEq, UInt8.lt_iff_toNat_lt, UInt8.toNat_inj]

theorem compare_digit {weight high low otherHigh otherLow : ℕ} (below : low < weight)
    (otherBelow : otherLow < weight) :
    compare (high * weight + low) (otherHigh * weight + otherLow) =
      (compare high otherHigh).then (compare low otherLow) := by
  rcases lt_trichotomy high otherHigh with less | rfl | more
  · have gap := Nat.mul_le_mul_right weight (Nat.succ_le_of_lt less)
    rw [Nat.succ_mul] at gap
    rw [Nat.compare_eq_lt.mpr less, Ordering.lt_then]
    exact Nat.compare_eq_lt.mpr (by omega)
  · rw [Nat.compare_eq_eq.mpr rfl, Ordering.eq_then]
    simp only [compare, compareOfLessAndEq, Nat.add_lt_add_iff_left, Nat.add_left_cancel_iff]
  · have gap := Nat.mul_le_mul_right weight (Nat.succ_le_of_lt more)
    rw [Nat.succ_mul] at gap
    rw [Nat.compare_eq_gt.mpr more, Ordering.gt_then]
    exact Nat.compare_eq_gt.mpr (by omega)

/-- Byte strings of one length are ordered as their numbers. -/
theorem compare_eq (sameLength : left.length = right.length) :
    compare left right = compare (value left) (value right) := by
  induction left generalizing right with
  | nil =>
    rw [List.eq_nil_of_length_eq_zero sameLength.symm]
    rfl
  | cons byte left ih =>
    obtain ⟨other, rest, rfl⟩ := List.exists_cons_of_length_eq_add_one sameLength.symm
    have sameLength : left.length = rest.length := Nat.succ.inj sameLength
    have otherBelow := value_lt rest
    rw [← sameLength] at otherBelow
    rw [value, value, ← sameLength, compare_digit (value_lt left) otherBelow,
      ← ih sameLength, ← compare_toNat]
    exact List.compareLex_cons_cons

theorem eq_of_value_eq (sameLength : left.length = right.length) (same : value left = value right) :
    left = right := by
  have equal : compare left right = .eq := by
    rw [compare_eq sameLength, same]
    exact Nat.compare_eq_eq.mpr rfl
  exact Std.LawfulEqCmp.eq_of_compare equal

/-! ## Loops with a carry -/

section Ripple

variable {Position Carry : Type*}

/-- From the last position to the first one. -/
def ripple (step : Position → Carry → Carry × UInt8) (start : Carry) (positions : List Position) :
    Carry × List UInt8 :=
  positions.foldr (fun position (carry, bytes) =>
    ((step position carry).1, (step position carry).2 :: bytes)) (start, [])

def weighted (weight : Position → ℤ) : List Position → ℤ
  | [] => 0
  | position :: positions => weight position * 256 ^ positions.length + weighted weight positions

variable {step : Position → Carry → Carry × UInt8} {start : Carry}

theorem length_ripple (positions : List Position) :
    (ripple step start positions).2.length = positions.length := by
  induction positions with
  | nil => rfl
  | cons position positions ih =>
    exact congrArg Nat.succ ih

variable (weight : Position → ℤ) (worth : Carry → ℤ) (Valid : Carry → Prop)
  (exactStep : ∀ position carry, Valid carry → Valid (step position carry).1 ∧
    (step position carry).2.toNat + 256 * worth (step position carry).1 =
      weight position + worth carry)
  (valid : Valid start) (positions : List Position)

include exactStep valid

/-- If every step is exact, then so is the loop, up to the carry that is left. -/
theorem ripple_value : Valid (ripple step start positions).1 ∧
      (value (ripple step start positions).2 : ℤ) +
        256 ^ positions.length * worth (ripple step start positions).1 =
        weighted weight positions + worth start := by
  induction positions with
  | nil => exact ⟨valid, by simp [ripple, value, weighted]⟩
  | cons position positions ih =>
    obtain ⟨isValid, exact⟩ := ih
    obtain ⟨nextValid, stepExact⟩ := exactStep position _ isValid
    refine ⟨nextValid, ?_⟩
    have isNext : ripple step start (position :: positions) =
        ((step position (ripple step start positions).1).1,
          (step position (ripple step start positions).1).2 ::
            (ripple step start positions).2) := rfl
    rw [isNext, value, weighted, length_ripple, List.length_cons]
    push_cast
    linear_combination exact + 256 ^ positions.length * stepExact

/-- The bytes are the low bytes of what the loop computes. -/
theorem ripple_value_mod : (value (ripple step start positions).2 : ℤ) =
      (weighted weight positions + worth start) % 256 ^ positions.length := by
  have exact := (ripple_value weight worth Valid exactStep valid positions).2
  have below := value_lt (ripple step start positions).2
  rw [length_ripple] at below
  rw [← exact, Int.add_mul_emod_self_left, Int.emod_eq_of_lt (Int.natCast_nonneg _)]
  exact_mod_cast below

end Ripple

theorem weighted_mul (bytes : List UInt8) :
    weighted (fun byte : UInt8 => factor * byte.toNat) bytes = factor * value bytes := by
  induction bytes with
  | nil => simp [weighted, value]
  | cons byte bytes ih =>
    rw [weighted, value, ih]
    push_cast
    ring

theorem weighted_zip (sameLength : left.length = right.length) :
    weighted (fun pair : UInt8 × UInt8 => pair.1.toNat + factor * pair.2.toNat) (left.zip right) =
      value left + factor * value right := by
  induction left generalizing right with
  | nil =>
    rw [List.eq_nil_of_length_eq_zero sameLength.symm]
    simp [weighted, value]
  | cons byte left ih =>
    obtain ⟨other, rest, rfl⟩ := List.exists_cons_of_length_eq_add_one sameLength.symm
    have sameLength : left.length = rest.length := Nat.succ.inj sameLength
    rw [List.zip_cons_cons, weighted, value, value, ih sameLength,
      List.length_zip, sameLength, Nat.min_self]
    push_cast
    ring

/-! ## Long division -/

theorem div_mod_double {dividend divisor bit : ℕ} (positive : 0 < divisor) (isBit : bit ≤ 1) :
    ((2 * dividend + bit) / divisor, (2 * dividend + bit) % divisor) =
      if 2 * (dividend % divisor) + bit < divisor then
        (2 * (dividend / divisor), 2 * (dividend % divisor) + bit)
      else (2 * (dividend / divisor) + 1, 2 * (dividend % divisor) + bit - divisor) := by
  have exact := Nat.div_add_mod dividend divisor
  have small := Nat.mod_lt dividend positive
  have double : divisor * (2 * (dividend / divisor)) = 2 * (divisor * (dividend / divisor)) :=
    Nat.mul_left_comm ..
  split
  next less =>
    have split : 2 * (dividend % divisor) + bit + divisor * (2 * (dividend / divisor)) =
        2 * dividend + bit := by omega
    obtain ⟨isQuotient, isRemainder⟩ := (Nat.div_mod_unique positive).mpr ⟨split, less⟩
    rw [isQuotient, isRemainder]
  next enough =>
    have split : 2 * (dividend % divisor) + bit - divisor +
        divisor * (2 * (dividend / divisor) + 1) = 2 * dividend + bit := by
      rw [Nat.mul_add]
      omega
    obtain ⟨isQuotient, isRemainder⟩ := (Nat.div_mod_unique positive).mpr ⟨split, by omega⟩
    rw [isQuotient, isRemainder]

/-! ## Bits -/

/-- A bit, counted from the most significant one. -/
def bit (bytes : List UInt8) (index : ℕ) : UInt8 :=
  (bytes.getD (index / 8) 0 >>> UInt8.ofNat (7 - index % 8)) &&& 1

def withBit (bytes : List UInt8) (index : ℕ) : List UInt8 :=
  bytes.modify (index / 8) fun byte => byte ||| 1 <<< UInt8.ofNat (7 - index % 8)

theorem toNat_ofNat_shift {shift : ℕ} (small : shift < 8) :
    (UInt8.ofNat shift).toNat % 8 = shift := by
  rw [UInt8.toNat_ofNat']
  omega

theorem pow_256 (exponent : ℕ) : 256 ^ exponent = 2 ^ (8 * exponent) := by
  rw [Nat.pow_mul]

theorem toNat_bit (inside : index < 8 * bytes.length) :
    (bit bytes index).toNat = value bytes / 2 ^ (8 * bytes.length - 1 - index) % 2 := by
  induction bytes generalizing index with
  | nil => simp at inside
  | cons byte bytes ih =>
    have below := value_lt bytes
    rw [List.length_cons, value, pow_256] at *
    by_cases first : index < 8
    · have shift : 8 * (bytes.length + 1) - 1 - index = 8 * bytes.length + (7 - index) := by omega
      rw [shift, Nat.pow_add, ← Nat.div_div_eq_div_mul, Nat.mul_comm byte.toNat,
        Nat.mul_add_div (Nat.two_pow_pos _), Nat.div_eq_of_lt below, Nat.add_zero, bit,
        Nat.div_eq_of_lt first, Nat.mod_eq_of_lt first, List.getD_cons_zero, UInt8.toNat_and,
        UInt8.toNat_shiftRight, toNat_ofNat_shift (by omega), Nat.shiftRight_eq_div_pow]
      exact Nat.and_one_is_mod _
    · obtain ⟨rest, rfl⟩ := Nat.exists_eq_add_of_le' (Nat.not_lt.mp first)
      have isRest : bit (byte :: bytes) (rest + 8) = bit bytes rest := by
        rw [bit, bit, Nat.add_div_right rest (by decide), Nat.add_mod_right, List.getD_cons_succ]
      have shift : 8 * bytes.length =
          (8 * (bytes.length + 1) - 1 - (rest + 8)) + (rest + 1) := by omega
      rw [isRest, ih (by omega)]
      generalize 8 * (bytes.length + 1) - 1 - (rest + 8) = place at shift ⊢
      have isPlace : 8 * bytes.length - 1 - rest = place := by omega
      rw [isPlace, shift, Nat.pow_add, Nat.mul_left_comm, Nat.mul_add_div (Nat.two_pow_pos _),
        Nat.pow_succ, ← Nat.mul_assoc, Nat.mul_add_mod_self_right]

theorem length_withBit (bytes : List UInt8) (index : ℕ) :
    (withBit bytes index).length = bytes.length := by
  rw [withBit, List.length_modify]

/-- Setting a bit that is followed by zeros only, and is zero itself. -/
theorem value_withBit (inside : index < 8 * bytes.length)
    (cleared : 2 ^ (8 * bytes.length - index) ∣ value bytes) :
    value (withBit bytes index) = value bytes + 2 ^ (8 * bytes.length - 1 - index) := by
  induction bytes generalizing index with
  | nil => simp at inside
  | cons byte bytes ih =>
    have below := value_lt bytes
    rw [pow_256] at below
    rw [List.length_cons] at inside cleared ⊢
    rw [value, pow_256] at cleared ⊢
    by_cases first : index < 8
    · have split : 8 * (bytes.length + 1) - index = 8 * bytes.length + (8 - index) := by omega
      have after : 8 * (bytes.length + 1) - 1 - index = 8 * bytes.length + (7 - index) := by omega
      rw [split, Nat.pow_add] at cleared
      have noRest : value bytes = 0 := by
        have divides := (Nat.dvd_add_right (Nat.dvd_mul_left _ byte.toNat)).mp
          ((Nat.dvd_mul_right _ _).trans cleared)
        exact Nat.eq_zero_of_dvd_of_lt divides below
      rw [noRest, Nat.add_zero, Nat.mul_comm byte.toNat] at cleared
      obtain ⟨high, isHigh⟩ := Nat.dvd_of_mul_dvd_mul_left (Nat.two_pow_pos _) cleared
      have isSet : withBit (byte :: bytes) index =
          (byte ||| 1 <<< UInt8.ofNat (7 - index)) :: bytes := by
        rw [withBit, Nat.div_eq_of_lt first, Nat.mod_eq_of_lt first, List.modify_zero_cons]
      have isByte : (byte ||| 1 <<< UInt8.ofNat (7 - index)).toNat =
          byte.toNat + 2 ^ (7 - index) := by
        have small : 2 ^ (7 - index) < 2 ^ (8 - index) :=
          Nat.pow_lt_pow_right (by decide) (by omega)
        have inByte : 2 ^ (7 - index) < 2 ^ 8 := Nat.pow_lt_pow_right (by decide) (by omega)
        rw [UInt8.toNat_or, UInt8.toNat_shiftLeft, toNat_ofNat_shift (by omega), isHigh,
          Nat.two_pow_add_eq_or_of_lt small, UInt8.toNat_one, Nat.one_shiftLeft,
          Nat.mod_eq_of_lt inByte]
      rw [isSet, value, isByte, pow_256, noRest, after, Nat.pow_add]
      ring
    · obtain ⟨rest, rfl⟩ := Nat.exists_eq_add_of_le' (Nat.not_lt.mp first)
      have isRest : withBit (byte :: bytes) (rest + 8) = byte :: withBit bytes rest := by
        rw [withBit, withBit, Nat.add_div_right rest (by decide), Nat.add_mod_right,
          List.modify_succ_cons]
      have after : 8 * (bytes.length + 1) - 1 - (rest + 8) = 8 * bytes.length - 1 - rest := by
        omega
      have split : 8 * (bytes.length + 1) - (rest + 8) = 8 * bytes.length - rest := by omega
      rw [split] at cleared
      have divides : 2 ^ (8 * bytes.length - rest) ∣ value bytes :=
        (Nat.dvd_add_right ((Nat.pow_dvd_pow 2 (Nat.sub_le _ _)).trans
          (Nat.dvd_mul_left _ byte.toNat))).mp cleared
      rw [isRest, value, length_withBit, ih (by omega) divides, after, pow_256, Nat.add_assoc]

end BigEndian
