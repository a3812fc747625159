import Mathlib.Data.Finset.Card
import Mathlib.Data.Finset.Powerset

/-!
# Quorum intersection

Counting facts about subsets of a finite population that are large enough to be
quorums.  `Intersects population size faults` says that any two quorums share
more than `faults` members; `intersects_iff` computes when that is the case.
-/

namespace Quorum

universe u

variable {Member : Type u} [DecidableEq Member] {population : Finset Member} {size faults : ℕ}

def Intersects (population : Finset Member) (size faults : ℕ) : Prop :=
  ∀ first second : Finset Member, first ⊆ population → second ⊆ population →
    size ≤ first.card → size ≤ second.card → faults < (first ∩ second).card

theorem card_add_card_le {first second : Finset Member} (firstSubset : first ⊆ population)
    (secondSubset : second ⊆ population) :
    first.card + second.card ≤ population.card + (first ∩ second).card := by
  have unionBound : (first ∪ second).card ≤ population.card :=
    Finset.card_le_card (Finset.union_subset firstSubset secondSubset)
  have split := Finset.card_union_add_card_inter first second
  omega

theorem intersects_of_lt (large : population.card + faults < 2 * size) :
    Intersects population size faults := by
  intro first second firstSubset secondSubset firstLarge secondLarge
  have overlap := card_add_card_le firstSubset secondSubset
  omega

theorem exists_small_overlap (fits : size ≤ population.card) :
    ∃ first second : Finset Member, first ⊆ population ∧ second ⊆ population ∧
      first.card = size ∧ second.card = size ∧
      (first ∩ second).card = 2 * size - population.card := by
  obtain ⟨first, firstSubset, firstCard⟩ := Finset.exists_subset_card_eq fits
  have restCard : (population \ first).card = population.card - size := by
    rw [Finset.card_sdiff_of_subset firstSubset, firstCard]
  by_cases disjointFits : size ≤ (population \ first).card
  · obtain ⟨second, secondSubset, secondCard⟩ := Finset.exists_subset_card_eq disjointFits
    have disjoint : Disjoint first second :=
      Finset.disjoint_of_subset_right secondSubset Finset.disjoint_sdiff
    refine ⟨first, second, firstSubset, secondSubset.trans Finset.sdiff_subset,
      firstCard, secondCard, ?_⟩
    rw [Finset.disjoint_iff_inter_eq_empty.mp disjoint, Finset.card_empty]
    omega
  · obtain ⟨shared, sharedSubset, sharedCard⟩ :=
      Finset.exists_subset_card_eq (s := first) (n := 2 * size - population.card) (by omega)
    have apart : Disjoint (population \ first) shared :=
      Finset.disjoint_of_subset_right sharedSubset Finset.sdiff_disjoint
    refine ⟨first, (population \ first) ∪ shared, firstSubset,
      Finset.union_subset Finset.sdiff_subset (sharedSubset.trans firstSubset), firstCard, ?_, ?_⟩
    · rw [Finset.card_union_of_disjoint apart]
      omega
    · rw [Finset.inter_union_distrib_left, Finset.inter_sdiff_self, Finset.empty_union,
        Finset.inter_eq_right.mpr sharedSubset, sharedCard]

/-- Exactly the quorum sizes above half of `population.card + faults` force an
overlap of more than `faults` members. -/
theorem intersects_iff (fits : size ≤ population.card) :
    Intersects population size faults ↔ population.card + faults < 2 * size := by
  constructor
  · intro intersects
    obtain ⟨first, second, firstSubset, secondSubset, firstCard, secondCard, overlap⟩ :=
      exists_small_overlap fits
    have shared := intersects first second firstSubset secondSubset firstCard.ge secondCard.ge
    omega
  · exact intersects_of_lt

/-- A quorum larger than the population is never reached. -/
theorem intersects_of_card_lt (unreachable : population.card < size) :
    Intersects population size faults := by
  intro first _ firstSubset _ firstLarge
  have bound := Finset.card_le_card firstSubset
  omega

theorem Intersects.exists_correct {faulty first second : Finset Member}
    (intersects : Intersects population size faults) (faultyBound : faulty.card ≤ faults)
    (firstSubset : first ⊆ population) (secondSubset : second ⊆ population)
    (firstLarge : size ≤ first.card) (secondLarge : size ≤ second.card) :
    ∃ member, member ∈ first ∧ member ∈ second ∧ member ∉ faulty := by
  have shared := intersects first second firstSubset secondSubset firstLarge secondLarge
  obtain ⟨member, membership, correct⟩ :=
    Finset.exists_mem_notMem_of_card_lt_card (faultyBound.trans_lt shared)
  exact ⟨member, (Finset.mem_inter.mp membership).1, (Finset.mem_inter.mp membership).2, correct⟩

end Quorum
