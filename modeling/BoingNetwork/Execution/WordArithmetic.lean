import BoingNetwork.Execution.Bytecode
import BoingNetwork.Library.BigEndian

/-!
# The arithmetic of words on byte arrays

The interpreter keeps words as arrays of 32 bytes and computes on them in loops with
carries, by a division of one bit at a time, and through integers of any size.  Every
operation is that of 256-bit vectors, which the model of the instructions uses.
-/

namespace BoingNetwork

open BigEndian

/-! ## Integers of any size -/

/-- `BigUint::to_bytes_be`: as few bytes as possible, but at least one. -/
def bigUintBytes (number : ℕ) : Bytes := fixed (max ((number.size + 7) / 8) 1) number

def biguintRemToU256Be (number : ℕ) : Bytes :=
  let bytes := bigUintBytes number
  if bytes.isEmpty then List.replicate 32 0
  else
    let length := min bytes.length 32
    List.replicate (32 - length) 0 ++ bytes.drop (bytes.length - length)

def biguintLowU256Be (number : ℕ) : Bytes :=
  let bytes := bigUintBytes number
  if bytes.isEmpty then List.replicate 32 0
  else if bytes.length ≤ 32 then List.replicate (32 - bytes.length) 0 ++ bytes
  else bytes.drop (bytes.length - 32)

/-- `BigInt::from_signed_bytes_be`: the first bit is the sign. -/
def signedValue (bytes : Bytes) : ℤ :=
  if bytes.headD 0 < 128 then value bytes else value bytes - 256 ^ bytes.length

def bigIntBytes (number : ℤ) : Bytes :=
  let magnitude := if 0 ≤ number then number.toNat else (-number - 1).toNat
  let width := magnitude.size / 8 + 1
  fixed width (number % 256 ^ width).toNat

def signedBigintToI256Word (number : ℤ) : Bytes :=
  let bytes := bigIntBytes number
  if bytes.isEmpty then List.replicate 32 0
  else
    let fill := if number < 0 then 0xff else 0x00
    let bytes := if bytes.length > 32 then bytes.drop (bytes.length - 32) else bytes
    List.replicate (32 - bytes.length) fill ++ bytes

/-! ## Operations -/

def addStep (pair : UInt8 × UInt8) (carry : ℕ) : ℕ × UInt8 :=
  let sum := pair.1.toNat + pair.2.toNat + carry
  (sum >>> 8, UInt8.ofNat sum)

def addU256 (left right : Bytes) : Bytes := (ripple addStep 0 (left.zip right)).2

def subStep (pair : UInt8 × UInt8) (borrow : ℤ) : ℤ × UInt8 :=
  let difference : ℤ := pair.1.toNat - pair.2.toNat - borrow
  (if difference < 0 then 1 else 0, UInt8.ofInt (difference.tmod 256))

def subU256 (left right : Bytes) : Bytes := (ripple subStep 0 (left.zip right)).2

def mulU256 (left right : Bytes) : Bytes := biguintLowU256Be (value left * value right)

def shl1Step (byte carry : UInt8) : UInt8 × UInt8 := (byte >>> 7, byte <<< 1 ||| carry)

def u256Shl1Be (word : Bytes) : Bytes := (ripple shl1Step 0 word).2

def getBitMsbFirst (word : Bytes) (index : ℕ) : UInt8 := bit word index

def setBitMsbFirst (word : Bytes) (index : ℕ) : Bytes := withBit word index

def divModStep (dividend divisor : Bytes) (state : Bytes × Bytes) (index : ℕ) : Bytes × Bytes :=
  let shifted := u256Shl1Be state.2
  let remainder :=
    if getBitMsbFirst dividend index ≠ 0 then shifted.modify 31 (· ||| 1) else shifted
  if compare remainder divisor ≠ .lt then
    (setBitMsbFirst state.1 index, subU256 remainder divisor)
  else (state.1, remainder)

def divModU256Be (dividend divisor : Bytes) : Except VmError (Bytes × Bytes) :=
  if divisor = List.replicate 32 0 then .error .divisionByZero
  else .ok ((List.range 256).foldl (divModStep dividend divisor)
    (List.replicate 32 0, List.replicate 32 0))

def effectiveShiftCount (count : Bytes) : ℕ := (count.getD 31 0).toNat

/-- `Shl`, `Shr` and `Sar` of the interpreter. -/
def shlU256 (word count : Bytes) : Bytes :=
  biguintRemToU256Be ((value word <<< effectiveShiftCount count) % (1 <<< 256))

def shrU256 (word count : Bytes) : Bytes :=
  biguintRemToU256Be (value word >>> effectiveShiftCount count)

def sarU256 (word count : Bytes) : Bytes :=
  signedBigintToI256Word (signedValue word >>> effectiveShiftCount count)

/-! ## Values -/

section Values

variable {left right : Bytes} (word : Bytes)

theorem length_addU256 (sameLength : left.length = right.length) :
    (addU256 left right).length = left.length := by
  rw [addU256, length_ripple, List.length_zip, sameLength, Nat.min_self]

theorem length_subU256 (sameLength : left.length = right.length) :
    (subU256 left right).length = left.length := by
  rw [subU256, length_ripple, List.length_zip, sameLength, Nat.min_self]

theorem length_u256Shl1Be : (u256Shl1Be word).length = word.length :=
  length_ripple word

theorem value_addU256 (sameLength : left.length = right.length) :
    value (addU256 left right) = (value left + value right) % 256 ^ left.length := by
  have loop : (value (addU256 left right) : ℤ) = _ :=
    ripple_value_mod (fun pair : UInt8 × UInt8 => (pair.1.toNat + 1 * pair.2.toNat : ℤ))
      (fun carry : ℕ => (carry : ℤ)) (fun _ => True)
      (fun pair carry _ => ⟨trivial, by
        simp only [addStep, UInt8.toNat_ofNat', Nat.shiftRight_eq_div_pow]
        omega⟩) trivial (left.zip right)
  rw [weighted_zip 1 sameLength, List.length_zip, ← sameLength, Nat.min_self, Int.one_mul,
    Nat.cast_zero, Int.add_zero] at loop
  exact_mod_cast loop

theorem toNat_ofInt_tmod (number : ℤ) :
    ((UInt8.ofInt (number.tmod 256)).toNat : ℤ) = number % 256 := by
  have same : number.tmod 256 % 256 = number % 256 := by
    rw [Int.tmod_def]
    omega
  rw [← same, UInt8.ofInt, UInt8.toNat_ofNat']
  omega

theorem value_subU256 (sameLength : left.length = right.length) :
    (value (subU256 left right) : ℤ) = (value left - value right) % 256 ^ left.length := by
  have loop : (value (subU256 left right) : ℤ) = _ :=
    ripple_value_mod (fun pair : UInt8 × UInt8 => (pair.1.toNat + -1 * pair.2.toNat : ℤ))
      (fun borrow : ℤ => -borrow) (fun borrow => borrow = 0 ∨ borrow = 1)
      (fun pair borrow valid => by
        have small := pair.1.toNat_lt
        have otherSmall := pair.2.toNat_lt
        simp only [subStep, toNat_ofInt_tmod]
        split <;> omega) (.inl rfl) (left.zip right)
  rw [weighted_zip (-1) sameLength, List.length_zip, ← sameLength, Nat.min_self] at loop
  rw [loop]
  congr 1
  ring

theorem value_u256Shl1Be : value (u256Shl1Be word) = 2 * value word % 256 ^ word.length := by
  have loop : (value (u256Shl1Be word) : ℤ) = _ :=
    ripple_value_mod (fun byte : UInt8 => (2 * byte.toNat : ℤ))
      (fun carry : UInt8 => (carry.toNat : ℤ)) (fun carry => carry.toNat ≤ 1)
      (fun byte carry valid => by
        have small := byte.toNat_lt
        have even : byte.toNat * 2 % 2 ^ 8 = 2 ^ 1 * (byte.toNat % 128) := by omega
        have carried : carry.toNat < 2 ^ 1 := by omega
        have shifted : (byte <<< 1 ||| carry).toNat = byte.toNat * 2 % 2 ^ 8 + carry.toNat := by
          rw [UInt8.toNat_or, UInt8.toNat_shiftLeft, UInt8.toNat_one, Nat.shiftLeft_eq, Nat.pow_one,
            even, Nat.two_pow_add_eq_or_of_lt carried]
        have upper : (byte >>> 7).toNat = byte.toNat / 128 := by
          rw [UInt8.toNat_shiftRight, Nat.shiftRight_eq_div_pow]
          rfl
        simp only [shl1Step, shifted, upper]
        omega) (by decide) word
  rw [weighted_mul, UInt8.toNat_zero, Nat.cast_zero, Int.add_zero] at loop
  exact_mod_cast loop

end Values

/-! ## Division -/

section Division

variable {dividend divisor : Bytes} {index : ℕ}

structure DivModAt (dividend divisor : Bytes) (index : ℕ) (state : Bytes × Bytes) : Prop where
  quotientLength : state.1.length = 32
  remainderLength : state.2.length = 32
  quotient : value state.1 =
    value dividend / 2 ^ (256 - index) / value divisor * 2 ^ (256 - index)
  remainder : value state.2 = value dividend / 2 ^ (256 - index) % value divisor

/-- A doubled remainder with the next bit of the dividend in its last place. -/
theorem value_nextRemainder {word : Bytes} (isWord : word.length = 32)
    (isDividend : dividend.length = 32) (inside : index < 256) (fits : 2 * value word < 256 ^ 32) :
    let shifted := u256Shl1Be word
    let next := if getBitMsbFirst dividend index ≠ 0 then shifted.modify 31 (· ||| 1) else shifted
    next.length = 32 ∧ value next = 2 * value word + value dividend / 2 ^ (255 - index) % 2 := by
  intro shifted next
  have length : shifted.length = 32 := (length_u256Shl1Be word).trans isWord
  have doubled : value shifted = 2 * value word := by
    rw [value_u256Shl1Be, isWord, Nat.mod_eq_of_lt fits]
  have isBit : (getBitMsbFirst dividend index).toNat = value dividend / 2 ^ (255 - index) % 2 := by
    rw [getBitMsbFirst, toNat_bit (by omega), isDividend]
  rw [← isBit]
  by_cases isSet : getBitMsbFirst dividend index = 0
  · have isNext : next = shifted := if_neg (not_not.mpr isSet)
    rw [isNext, isSet, UInt8.toNat_zero]
    exact ⟨length, doubled⟩
  · have isNext : next = withBit shifted 255 := if_pos isSet
    have one : (getBitMsbFirst dividend index).toNat = 1 := by
      have nonzero : (getBitMsbFirst dividend index).toNat ≠ 0 :=
        fun zero => isSet (UInt8.toNat_inj.mp zero)
      omega
    rw [isNext, length_withBit, value_withBit (by omega) (by rw [length, doubled]; exact ⟨_, rfl⟩),
      doubled, length, one]
    exact ⟨rfl, rfl⟩

theorem DivModAt.step {state : Bytes × Bytes} (reached : DivModAt dividend divisor index state)
    (inside : index < 256) (isDividend : dividend.length = 32) (isDivisor : divisor.length = 32)
    (positive : 0 < value divisor) :
    DivModAt dividend divisor (index + 1) (divModStep dividend divisor state index) := by
  obtain ⟨quotientLength, remainderLength, quotient, remainder⟩ := reached
  have place : 256 - index = (255 - index) + 1 := by omega
  have lastPlace : 256 - (index + 1) = 255 - index := by omega
  have below := value_lt dividend
  have atMost := Nat.div_le_self (value dividend) (2 ^ (255 - index))
  rw [place, Nat.pow_succ, ← Nat.div_div_eq_div_mul] at quotient remainder
  rw [isDividend] at below
  generalize isPrefix : value dividend / 2 ^ (255 - index) = taken at quotient remainder atMost
  have small := Nat.mod_le (taken / 2) (value divisor)
  obtain ⟨length, next⟩ := value_nextRemainder remainderLength isDividend inside (by omega)
  have exact := @div_mod_double (taken / 2) _ (taken % 2) positive
    (Nat.lt_succ_iff.mp (Nat.mod_lt taken two_pos))
  have halves : 2 * (taken / 2) + taken % 2 = taken := Nat.div_add_mod taken 2
  rw [isPrefix, remainder] at next
  rw [halves, ← next] at exact
  unfold divModStep
  dsimp only at length next exact ⊢
  generalize (if getBitMsbFirst dividend index ≠ 0 then _ else _ : Bytes) = extended
    at length next exact ⊢
  have ordered : compare extended divisor = .lt ↔ value extended < value divisor := by
    rw [compare_eq (length.trans isDivisor.symm), Nat.compare_eq_lt]
  by_cases less : value extended < value divisor
  · rw [if_pos less, Prod.mk.injEq] at exact
    rw [if_neg (not_not.mpr (ordered.mpr less))]
    refine ⟨quotientLength, length, ?_, ?_⟩
    · rw [quotient, lastPlace, isPrefix, exact.1, Nat.mul_comm 2, Nat.mul_assoc, Nat.mul_comm 2]
    · rw [lastPlace, isPrefix, exact.2]
  · rw [if_neg less, Prod.mk.injEq] at exact
    rw [if_pos (mt ordered.mp less)]
    have cleared : 2 ^ (8 * state.1.length - index) ∣ value state.1 := by
      have isPlace : 8 * 32 - index = (255 - index) + 1 := place
      rw [quotientLength, quotient, isPlace, Nat.pow_succ]
      exact Nat.dvd_mul_left _ _
    refine ⟨(length_withBit _ _).trans quotientLength,
      (length_subU256 (length.trans isDivisor.symm)).trans length, ?_, ?_⟩
    · rw [setBitMsbFirst, value_withBit (by omega) cleared, quotientLength, quotient, lastPlace,
        isPrefix, exact.1]
      ring
    · have difference := value_subU256 (length.trans isDivisor.symm)
      have fits := value_lt extended
      rw [length] at difference fits
      rw [lastPlace, isPrefix, exact.2]
      dsimp only
      omega

theorem divModAt_foldl (isDividend : dividend.length = 32) (isDivisor : divisor.length = 32)
    (positive : 0 < value divisor) {count : ℕ} (inside : count ≤ 256) :
    DivModAt dividend divisor count ((List.range count).foldl (divModStep dividend divisor)
      (List.replicate 32 0, List.replicate 32 0)) := by
  induction count with
  | zero =>
    have below := value_lt dividend
    rw [isDividend] at below
    have none : value dividend / 2 ^ 256 = 0 := Nat.div_eq_of_lt below
    refine ⟨rfl, rfl, ?_, ?_⟩
    · rw [Nat.sub_zero, none, Nat.zero_div, Nat.zero_mul]
      exact value_replicate_zero 32
    · rw [Nat.sub_zero, none, Nat.zero_mod]
      exact value_replicate_zero 32
  | succ count ih =>
    rw [List.range_succ, List.foldl_append]
    exact (ih (by omega)).step (by omega) isDividend isDivisor positive

end Division

/-! ## Words -/

theorem value_bytes32 (word : Word) : value (bytes32 word) = word.toNat :=
  (value_fixed 32 word.toNat).trans (Nat.mod_eq_of_lt word.isLt)

theorem eq_bytes32 {bytes : Bytes} {word : Word} (length : bytes.length = 32)
    (isValue : value bytes = word.toNat) : bytes = bytes32 word :=
  eq_of_value_eq (length.trans (Bincode.length_bytes32 word).symm)
    (isValue.trans (value_bytes32 word).symm)

variable (number : ℕ)

theorem lt_pow_bigUintBytes : number < 256 ^ (bigUintBytes number).length := by
  rw [bigUintBytes, length_fixed, pow_256]
  exact (Nat.lt_size_self number).trans_le (Nat.pow_le_pow_right two_pos (by omega))

theorem value_bigUintBytes : value (bigUintBytes number) = number := by
  have fits := lt_pow_bigUintBytes number
  rw [bigUintBytes, length_fixed] at fits
  rw [bigUintBytes, value_fixed, Nat.mod_eq_of_lt fits]

theorem bigUintBytes_nonempty : ¬(bigUintBytes number).isEmpty = true := by
  have length : (bigUintBytes number).length = max ((number.size + 7) / 8) 1 := length_fixed _ _
  rw [List.isEmpty_iff_length_eq_zero]
  omega

theorem biguintLowU256Be_eq : biguintLowU256Be number = bytes32 (BitVec.ofNat 256 number) := by
  have fits := lt_pow_bigUintBytes number
  rw [biguintLowU256Be, if_neg (bigUintBytes_nonempty number)]
  split
  next short =>
    have inWord : number < 2 ^ 256 := fits.trans_le (Nat.pow_le_pow_right (by decide) short)
    apply eq_bytes32
    · rw [List.length_append, List.length_replicate]
      omega
    · rw [value_append, value_replicate_zero, value_bigUintBytes, Nat.zero_mul, Nat.zero_add,
        BitVec.toNat_ofNat, Nat.mod_eq_of_lt inWord]
  next long =>
    apply eq_bytes32
    · rw [List.length_drop]
      omega
    · rw [value_drop (by omega), value_bigUintBytes, BitVec.toNat_ofNat]
      rfl

theorem biguintRemToU256Be_eq : biguintRemToU256Be number = bytes32 (BitVec.ofNat 256 number) := by
  rw [← biguintLowU256Be_eq, biguintRemToU256Be, biguintLowU256Be,
    if_neg (bigUintBytes_nonempty number), if_neg (bigUintBytes_nonempty number)]
  dsimp only
  split
  next short => rw [Nat.min_eq_left short, Nat.sub_self, List.drop_zero]
  next long => rw [Nat.min_eq_right (by omega), Nat.sub_self, List.replicate_zero, List.nil_append]

theorem effectiveShiftCount_bytes32 (count : Word) :
    effectiveShiftCount (bytes32 count) = count.shift := by
  have last : (bytes32 count).getD 31 0 = UInt8.ofNat (count.toNat >>> 0) := rfl
  rw [effectiveShiftCount, last, UInt8.toNat_ofNat', Nat.shiftRight_zero, Word.shift]

theorem signedValue_bytes32 (word : Word) : signedValue (bytes32 word) = word.toInt := by
  obtain ⟨first, rest, isBytes⟩ := List.exists_cons_of_length_eq_add_one
    (Bincode.length_bytes32 word)
  have isValue := value_bytes32 word
  have length := Bincode.length_bytes32 word
  have below := value_lt rest
  rw [isBytes, List.length_cons] at length
  rw [isBytes, value, Nat.succ.inj length] at isValue
  rw [Nat.succ.inj length] at below
  have sign : first < 128 ↔ 2 * word.toNat < 2 ^ 256 := by
    have bound : (128 : UInt8).toNat = 128 := rfl
    rw [UInt8.lt_iff_toNat_lt, bound]
    omega
  rw [signedValue, value_bytes32, Bincode.length_bytes32, isBytes, List.headD_cons, BitVec.toInt,
    if_congr sign rfl rfl]
  rfl

theorem bigIntBytes_width {number : ℤ} (lower : -2 ^ 255 ≤ number) (upper : number < 2 ^ 255) :
    ∃ width ≤ 32, 0 < width ∧ bigIntBytes number = fixed width (number % 256 ^ width).toNat ∧
      -256 ^ width ≤ number ∧ number < 256 ^ width := by
  unfold bigIntBytes
  generalize isMagnitude : (if 0 ≤ number then number.toNat else (-number - 1).toNat) = magnitude
  have isNumber : number = magnitude ∨ number = -magnitude - 1 := by
    split at isMagnitude <;> omega
  have small : magnitude.size ≤ 255 := Nat.size_le.mpr (by omega)
  have fits : magnitude < 256 ^ (magnitude.size / 8 + 1) := by
    rw [pow_256]
    exact (Nat.lt_size_self magnitude).trans_le (Nat.pow_le_pow_right two_pos (by omega))
  have inWidth : (magnitude : ℤ) < 256 ^ (magnitude.size / 8 + 1) := by exact_mod_cast fits
  exact ⟨magnitude.size / 8 + 1, by omega, by omega, rfl, by omega, by omega⟩

theorem emod_of_neg {number bound : ℤ} (negative : number < 0) (above : -bound ≤ number) :
    number % bound = number + bound := by
  rw [← Int.add_emod_right]
  exact Int.emod_eq_of_lt (by omega) (by omega)

theorem signedBigintToI256Word_eq {number : ℤ} (lower : -2 ^ 255 ≤ number)
    (upper : number < 2 ^ 255) :
    signedBigintToI256Word number = bytes32 (BitVec.ofInt 256 number) := by
  obtain ⟨width, inWord, positive, isBytes, above, below⟩ := bigIntBytes_width lower upper
  have length : (bigIntBytes number).length = width := by rw [isBytes, length_fixed]
  have nonempty : ¬(bigIntBytes number).isEmpty = true := by
    rw [List.isEmpty_iff_length_eq_zero]
    omega
  rw [signedBigintToI256Word, if_neg nonempty]
  dsimp only
  rw [length, if_neg (Nat.not_lt.mpr inWord), length]
  apply eq_bytes32
  · rw [List.length_append, List.length_replicate, length]
    omega
  · have isValue : (value (bigIntBytes number) : ℤ) = number % 256 ^ width := by
      have nonneg : 0 ≤ number % 256 ^ width := Int.emod_nonneg _ (by positivity)
      have fits : number % 256 ^ width < 256 ^ width := Int.emod_lt_of_pos _ (by positivity)
      rw [isBytes, value_fixed, Nat.mod_eq_of_lt (by zify; rwa [Int.toNat_of_nonneg nonneg]),
        Int.toNat_of_nonneg nonneg]
    have nonneg : 0 ≤ number % 2 ^ 256 := Int.emod_nonneg _ (by norm_num)
    have isPower : (256 : ℤ) ^ (32 - width) * 256 ^ width = 2 ^ 256 := by
      rw [← Int.pow_add, Nat.sub_add_cancel inWord]
      rfl
    have modulus : ((2 ^ 256 : ℕ) : ℤ) = 2 ^ 256 := by norm_num
    zify
    rw [BitVec.toNat_ofInt, modulus, Int.toNat_of_nonneg nonneg, value_append, length, Nat.cast_add,
      Nat.cast_mul, Nat.cast_pow, isValue, Nat.cast_ofNat]
    split
    next negative =>
      have filled := value_replicate_max (32 - width)
      zify at filled
      rw [emod_of_neg negative above, emod_of_neg negative (by omega)]
      linear_combination (256 : ℤ) ^ width * filled + isPower
    next =>
      rw [value_replicate_zero, Nat.cast_zero, Int.zero_mul, Int.zero_add,
        Int.emod_eq_of_lt (by omega) below, Int.emod_eq_of_lt (by omega) (by omega)]

/-! ## The operations of the instructions -/

variable (left right : Word)

theorem addU256_bytes32 : addU256 (bytes32 left) (bytes32 right) = bytes32 (left + right) := by
  apply eq_bytes32
  · rw [length_addU256 (by simp), Bincode.length_bytes32]
  · rw [value_addU256 (by simp), value_bytes32, value_bytes32, Bincode.length_bytes32,
      BitVec.toNat_add]
    rfl

theorem mulU256_bytes32 : mulU256 (bytes32 left) (bytes32 right) = bytes32 (left * right) := by
  rw [mulU256, biguintLowU256Be_eq, value_bytes32, value_bytes32, BitVec.ofNat_mul,
    BitVec.ofNat_toNat, BitVec.ofNat_toNat, BitVec.setWidth_eq, BitVec.setWidth_eq]

theorem divModU256Be_bytes32 : divModU256Be (bytes32 left) (bytes32 right) =
    if right = 0 then .error .divisionByZero
    else .ok (bytes32 (left / right), bytes32 (left % right)) := by
  have isZero : bytes32 right = List.replicate 32 0 ↔ right = 0 := by
    rw [← bytes32_injective.eq_iff]
    exact Iff.rfl
  rw [divModU256Be]
  simp only [isZero]
  split
  next => rfl
  next nonzero =>
    have positive : 0 < value (bytes32 right) := by
      rw [value_bytes32]
      exact Nat.pos_of_ne_zero fun zero => nonzero (BitVec.eq_of_toNat_eq zero)
    obtain ⟨quotientLength, remainderLength, quotient, remainder⟩ := divModAt_foldl
      (Bincode.length_bytes32 left) (Bincode.length_bytes32 right) positive (le_refl 256)
    rw [Nat.sub_self, Nat.pow_zero, Nat.div_one, value_bytes32, value_bytes32] at quotient remainder
    rw [Except.ok.injEq]
    apply Prod.ext
    · exact eq_bytes32 quotientLength (by rw [quotient, Nat.mul_one, BitVec.toNat_udiv])
    · exact eq_bytes32 remainderLength (by rw [remainder, BitVec.toNat_umod])

theorem shlU256_bytes32 :
    shlU256 (bytes32 left) (bytes32 right) = bytes32 (left <<< right.shift) := by
  rw [shlU256, effectiveShiftCount_bytes32, value_bytes32, biguintRemToU256Be_eq]
  congr 1
  apply BitVec.eq_of_toNat_eq
  rw [BitVec.toNat_ofNat, BitVec.toNat_shiftLeft, Nat.one_shiftLeft, Nat.mod_mod]

theorem shrU256_bytes32 :
    shrU256 (bytes32 left) (bytes32 right) = bytes32 (left >>> right.shift) := by
  rw [shrU256, effectiveShiftCount_bytes32, value_bytes32, biguintRemToU256Be_eq,
    ← BitVec.toNat_ushiftRight, BitVec.ofNat_toNat, BitVec.setWidth_eq]

theorem sarU256_bytes32 :
    sarU256 (bytes32 left) (bytes32 right) = bytes32 (left.sshiftRight right.shift) := by
  rw [sarU256, effectiveShiftCount_bytes32, signedValue_bytes32, ← BitVec.toInt_sshiftRight,
    signedBigintToI256Word_eq, BitVec.ofInt_toInt]
  · exact BitVec.le_toInt _
  · exact BitVec.toInt_lt

/-- The arithmetic on arrays is arithmetic modulo 2^256, exact division, and shifts by the
low byte of the count, signed in the last case. -/
theorem word_arithmetic_exact :
    value (addU256 (bytes32 left) (bytes32 right)) = (left.toNat + right.toNat) % 2 ^ 256 ∧
    (value (subU256 (bytes32 left) (bytes32 right)) : ℤ) =
      ((left.toNat : ℤ) - right.toNat) % 2 ^ 256 ∧
    value (mulU256 (bytes32 left) (bytes32 right)) = left.toNat * right.toNat % 2 ^ 256 ∧
    divModU256Be (bytes32 left) (bytes32 right) =
      (if right = 0 then .error .divisionByZero
        else .ok (fixed 32 (left.toNat / right.toNat), fixed 32 (left.toNat % right.toNat))) ∧
    value (shlU256 (bytes32 left) (bytes32 right)) =
      left.toNat * 2 ^ (right.toNat % 256) % 2 ^ 256 ∧
    value (shrU256 (bytes32 left) (bytes32 right)) = left.toNat / 2 ^ (right.toNat % 256) ∧
    signedValue (sarU256 (bytes32 left) (bytes32 right)) =
      left.toInt / 2 ^ (right.toNat % 256) := by
  have difference := @value_subU256 (bytes32 left) (bytes32 right) (by simp)
  rw [value_bytes32, value_bytes32, Bincode.length_bytes32] at difference
  refine ⟨?_, difference, ?_, ?_, ?_, ?_, ?_⟩
  · rw [addU256_bytes32, value_bytes32, BitVec.toNat_add]
  · rw [mulU256_bytes32, value_bytes32, BitVec.toNat_mul]
  · rw [divModU256Be_bytes32]
    rfl
  · rw [shlU256_bytes32, value_bytes32, BitVec.toNat_shiftLeft, Nat.shiftLeft_eq]
    rfl
  · rw [shrU256_bytes32, value_bytes32, BitVec.toNat_ushiftRight, Nat.shiftRight_eq_div_pow]
    rfl
  · rw [sarU256_bytes32, signedValue_bytes32, BitVec.toInt_sshiftRight, Int.shiftRight_eq_div_pow]
    norm_num [Word.shift]

end BoingNetwork
