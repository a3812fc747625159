import BoingNetwork.Node.Transition

/-!
# The schedule of block rewards

The first-year reward is decayed once for every year that has passed, in integers, and does not
fall below a floor.  The loop over the years ends early at the floor, where further decay
changes nothing.  All products fit in 128 bits.
-/

namespace BoingNetwork

def emissionSupply : ℕ := MachineInt.saturatingMul 128 INITIAL_SUPPLY BASE_UNITS_PER_BOING

def emissionFloor : ℕ := emissionSupply * EMISSION_FLOOR_BPS / 10000 / BLOCKS_PER_YEAR

def firstYearEmission : ℕ := emissionSupply * EMISSION_YEAR_1_BPS / 10000 / BLOCKS_PER_YEAR

def decayOneYear (emission : ℕ) : ℕ := emission * EMISSION_DECAY_BPS / 10000

def proposerShare (emission : ℕ) : ℕ := emission * BLOCK_EMISSION_PROPOSER_BPS / 10000

theorem blockEmission_of_pos {height : ℕ} (positive : 1 ≤ height) :
    blockEmissionValidatorsBaseUnits height = proposerShare (max (decayEmission emissionFloor
      ((height - 1) / BLOCKS_PER_YEAR) firstYearEmission) emissionFloor) :=
  if_neg (Nat.ne_of_gt positive)

/-! ## Decay -/

theorem decayOneYear_le (emission : ℕ) : decayOneYear emission ≤ emission := by
  unfold decayOneYear EMISSION_DECAY_BPS
  omega

theorem decayEmission_succ (floor years emission : ℕ) : decayEmission floor (years + 1) emission =
      if decayOneYear emission ≤ floor then decayOneYear emission
      else decayEmission floor years (decayOneYear emission) := rfl

theorem antitone_decay (emission : ℕ) : Antitone fun years => decayOneYear^[years] emission := by
  apply antitone_nat_of_succ_le
  intro years
  rw [Function.iterate_succ_apply']
  exact decayOneYear_le _

/-- Once the floor is reached, the years that the loop leaves out do not matter. -/
theorem max_decayEmission (floor years emission : ℕ) :
    max (decayEmission floor years emission) floor = max (decayOneYear^[years] emission) floor := by
  induction years generalizing emission with
  | zero => rfl
  | succ years ih =>
    rw [decayEmission_succ, Function.iterate_succ_apply]
    split
    next reached =>
      have later : decayOneYear^[years] (decayOneYear emission) ≤ floor :=
        (antitone_decay _ (Nat.zero_le years)).trans reached
      rw [Nat.max_eq_right reached, Nat.max_eq_right later]
    next => exact ih (decayOneYear emission)

theorem antitoneOn_blockEmission : AntitoneOn blockEmissionValidatorsBaseUnits (Set.Ici 1) := by
  intro height positive later laterPositive order
  rw [blockEmission_of_pos positive, blockEmission_of_pos laterPositive, max_decayEmission,
    max_decayEmission]
  have years : (height - 1) / BLOCKS_PER_YEAR ≤ (later - 1) / BLOCKS_PER_YEAR :=
    Nat.div_le_div_right (Nat.sub_le_sub_right order 1)
  have decayed := antitone_decay firstYearEmission years
  unfold proposerShare
  gcongr

/-! ## Overflow -/

/-- The product of two 128-bit integers, if it is one. -/
def checkedMul128 (left right : ℕ) : Option ℕ :=
  if left * right < 2 ^ 128 then some (left * right) else none

def decayEmissionChecked (floor : ℕ) : ℕ → ℕ → Option ℕ
  | 0, emission => some emission
  | years + 1, emission => do
    let product ← checkedMul128 emission EMISSION_DECAY_BPS
    let next := product / 10000
    if next ≤ floor then return next
    decayEmissionChecked floor years next

/-- The computation of the reward, which stops where a product overflows. -/
def blockEmissionChecked (height : ℕ) : Option ℕ := do
  if height = 0 then return 0
  let floorShare ← checkedMul128 emissionSupply EMISSION_FLOOR_BPS
  let firstShare ← checkedMul128 emissionSupply EMISSION_YEAR_1_BPS
  let floor := floorShare / 10000 / BLOCKS_PER_YEAR
  let emission ← decayEmissionChecked floor ((height - 1) / BLOCKS_PER_YEAR)
    (firstShare / 10000 / BLOCKS_PER_YEAR)
  let share ← checkedMul128 (max emission floor) BLOCK_EMISSION_PROPOSER_BPS
  return share / 10000

theorem checkedMul128_of_le {left right : ℕ} (small : left ≤ firstYearEmission)
    (rate : right ≤ 10000) : checkedMul128 left right = some (left * right) := by
  have bound : firstYearEmission * 10000 < 2 ^ 128 := by decide
  exact if_pos ((Nat.mul_le_mul small rate).trans_lt bound)

theorem decayEmissionChecked_eq {floor emission : ℕ} (years : ℕ)
    (small : emission ≤ firstYearEmission) :
    decayEmissionChecked floor years emission = some (decayEmission floor years emission) ∧
      decayEmission floor years emission ≤ firstYearEmission := by
  induction years generalizing emission with
  | zero => exact ⟨rfl, small⟩
  | succ years ih =>
    have next : decayOneYear emission ≤ firstYearEmission := (decayOneYear_le emission).trans small
    rw [decayEmissionChecked, checkedMul128_of_le small (by decide), decayEmission_succ,
      Option.bind_eq_bind, Option.bind_some]
    change (if decayOneYear emission ≤ floor then some (decayOneYear emission)
      else decayEmissionChecked floor years (decayOneYear emission)) = _ ∧ _
    split
    next => exact ⟨rfl, next⟩
    next => exact ih next

theorem blockEmissionChecked_eq (height : ℕ) :
    blockEmissionChecked height = some (blockEmissionValidatorsBaseUnits height) := by
  by_cases zero : height = 0
  · rw [zero]
    rfl
  · have floorFits : checkedMul128 emissionSupply EMISSION_FLOOR_BPS = some _ := if_pos (by decide)
    have firstFits : checkedMul128 emissionSupply EMISSION_YEAR_1_BPS = some _ := if_pos (by decide)
    obtain ⟨decayed, small⟩ := @decayEmissionChecked_eq emissionFloor _
      ((height - 1) / BLOCKS_PER_YEAR) (le_refl firstYearEmission)
    have largest : max (decayEmission emissionFloor ((height - 1) / BLOCKS_PER_YEAR)
        firstYearEmission) emissionFloor ≤ firstYearEmission := max_le small (by decide)
    rw [blockEmission_of_pos (Nat.pos_of_ne_zero zero), blockEmissionChecked, if_neg zero,
      floorFits, firstFits]
    change (decayEmissionChecked emissionFloor _ firstYearEmission).bind (fun emission =>
      (checkedMul128 (max emission emissionFloor) _).bind fun share => some (share / 10000)) = _
    rw [decayed, Option.bind_some, checkedMul128_of_le largest (by decide)]
    rfl

/-- Rewards never rise, never fall below the share of the floor, do not overflow, are the
first-year reward decayed for every full year and then floored, and rewards in whole BOING are
those in base units rounded down. -/
theorem blockEmission_schedule :
    (∀ denomination, AntitoneOn (blockEmissionValidatorsIn · denomination) (Set.Ici 1)) ∧
    (∀ height, blockEmissionChecked height = some (blockEmissionValidatorsIn height .baseUnits)) ∧
    (∀ height ≥ 1, proposerShare emissionFloor ≤ blockEmissionValidatorsIn height .baseUnits ∧
      blockEmissionValidatorsIn height .baseUnits = proposerShare (max
        (decayOneYear^[(height - 1) / BLOCKS_PER_YEAR] firstYearEmission) emissionFloor)) ∧
    ∀ height, blockEmissionValidatorsIn height .wholeBoing =
      blockEmissionValidatorsIn height .baseUnits / BASE_UNITS_PER_BOING := by
  refine ⟨?_, blockEmissionChecked_eq, ?_, fun height => rfl⟩
  · intro denomination height positive later laterPositive order
    have falls := antitoneOn_blockEmission positive laterPositive order
    cases denomination with
    | wholeBoing => exact Nat.div_le_div_right falls
    | baseUnits => exact falls
  · intro height positive
    have isEmission : blockEmissionValidatorsIn height .baseUnits = _ :=
      blockEmission_of_pos positive
    rw [isEmission, max_decayEmission]
    exact ⟨Nat.div_le_div_right (Nat.mul_le_mul_right _ (le_max_right _ _)), rfl⟩

end BoingNetwork
