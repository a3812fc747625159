import Mathlib.Dynamics.PeriodicPts.Lemmas
import Mathlib.Tactic.LinearCombination
import Mathlib.Tactic.Ring

/-!
# Linear congruential generators

The generator `x ↦ a * x + c` with a multiplier of the form `4 t + 1` and an odd increment
runs through all residues of a power of two.  After `2 ^ k` steps the multiplier is one up to
`2 ^ (k + 2)`, and what is added is an odd multiple of `2 ^ k`.
-/

namespace Congruential

universe u

variable {Ring : Type u} [CommRing Ring] {width : ℕ}

def step (multiplier increment state : Ring) : Ring := multiplier * state + increment

theorem iterate_two_pow (quarter half : Ring) (power : ℕ) :
    ∃ scale shift : Ring, ∀ state, (step (1 + 4 * quarter) (1 + 2 * half))^[2 ^ power] state =
      (1 + 2 ^ (power + 2) * scale) * state + 2 ^ power * (1 + 2 * shift) := by
  induction power with
  | zero =>
    refine ⟨quarter, half, fun state => ?_⟩
    rw [pow_zero, Function.iterate_one, step]
    ring
  | succ power ih =>
    obtain ⟨scale, shift, affine⟩ := ih
    refine ⟨scale + 2 ^ (power + 1) * scale ^ 2,
      shift + 2 ^ power * scale * (1 + 2 * shift), fun state => ?_⟩
    rw [pow_succ, mul_two, Function.iterate_add_apply, affine, affine]
    ring

/-- The generator returns after as many steps as there are residues. -/
theorem minimalPeriod_step (quarter half state : Ring) (vanishes : (2 : Ring) ^ (width + 1) = 0)
    (nonzero : (2 : Ring) ^ width ≠ 0) :
    Function.minimalPeriod (step (1 + 4 * quarter) (1 + 2 * half)) state = 2 ^ (width + 1) := by
  have : Fact (Nat.Prime 2) := ⟨Nat.prime_two⟩
  refine Function.minimalPeriod_eq_prime_pow ?_ ?_
  · obtain ⟨scale, shift, affine⟩ := iterate_two_pow quarter half width
    rw [Function.IsPeriodicPt, Function.IsFixedPt, affine]
    intro returns
    refine nonzero ?_
    linear_combination returns - (2 * scale * state + shift) * vanishes
  · obtain ⟨scale, shift, affine⟩ := iterate_two_pow quarter half (width + 1)
    rw [Function.IsPeriodicPt, Function.IsFixedPt, affine]
    linear_combination (4 * scale * state + (1 + 2 * shift)) * vanishes

/-- As many steps as there are residues lead to different ones. -/
theorem iterate_injOn (quarter half state : Ring) (vanishes : (2 : Ring) ^ (width + 1) = 0)
    (nonzero : (2 : Ring) ^ width ≠ 0) :
    Set.InjOn (fun count => (step (1 + 4 * quarter) (1 + 2 * half))^[count] state)
      (Set.Iio (2 ^ (width + 1))) := by
  have below := @Function.iterate_injOn_Iio_minimalPeriod _
    (step (1 + 4 * quarter) (1 + 2 * half)) state
  rwa [minimalPeriod_step quarter half state vanishes nonzero] at below

/-- From every residue the generator reaches every other one. -/
theorem exists_iterate_eq [Fintype Ring] (quarter half state target : Ring)
    (vanishes : (2 : Ring) ^ (width + 1) = 0) (nonzero : (2 : Ring) ^ width ≠ 0)
    (card : Fintype.card Ring = 2 ^ (width + 1)) :
    ∃ count < 2 ^ (width + 1), (step (1 + 4 * quarter) (1 + 2 * half))^[count] state = target := by
  classical
  have injective := iterate_injOn quarter half state vanishes nonzero
  rw [← Finset.coe_range] at injective
  have all : (Finset.range (2 ^ (width + 1))).image
      (fun count => (step (1 + 4 * quarter) (1 + 2 * half))^[count] state) = Finset.univ := by
    rw [← Finset.card_eq_iff_eq_univ, Finset.card_image_of_injOn injective, Finset.card_range, card]
  have member := Finset.mem_univ target
  rw [← all, Finset.mem_image] at member
  simpa using member

end Congruential
