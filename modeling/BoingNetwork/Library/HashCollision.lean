import Mathlib.Tactic.ByContra

/-!
# Hash collisions

No hash function is injective, so what a hash commits to is stated up to a collision: two
different inputs, out of those that were hashed, with one digest.
-/

universe u v

variable {Input : Type u} {Digest : Type v}

def HashCollision (hash : Input → Digest) (inputs : List Input) : Prop :=
  ∃ first ∈ inputs, ∃ second ∈ inputs, first ≠ second ∧ hash first = hash second

namespace HashCollision

variable {hash : Input → Digest}

instance [DecidableEq Input] [DecidableEq Digest] (inputs : List Input) :
    Decidable (HashCollision hash inputs) :=
  inferInstanceAs (Decidable (∃ first ∈ inputs, ∃ second ∈ inputs, _ ∧ _))

theorem mono {inputs more : List Input} (collision : HashCollision hash inputs)
    (contained : inputs ⊆ more) : HashCollision hash more := by
  obtain ⟨first, isFirst, second, isSecond, differ, same⟩ := collision
  exact ⟨first, contained isFirst, second, contained isSecond, differ, same⟩

theorem eq_of_not {inputs : List Input} (collisionFree : ¬ HashCollision hash inputs)
    {first second : Input} (isFirst : first ∈ inputs) (isSecond : second ∈ inputs)
    (same : hash first = hash second) : first = second := by
  by_contra differ
  exact collisionFree ⟨first, isFirst, second, isSecond, differ, same⟩

end HashCollision
