import Mathlib.Data.Finset.Lattice.Fold
import Mathlib.Order.Lattice.Nat

/-!
# First-fit levels of a conflict relation

Items are numbered.  First fit gives every item the least level on which no
earlier item conflicts with it.  The depth of an item is the length of the longest
chain of successive conflicts that ends in it.  First fit keeps the order of
conflicting items exactly when it agrees with the depth, that is when the depths
of the earlier conflicting items of an item leave no gap.
-/

namespace FirstFit

variable (Conflicts : ℕ → ℕ → Prop)

noncomputable def level (item : ℕ) : ℕ :=
  sInf { free | ∀ earlier, ∀ _ : earlier < item, Conflicts earlier item → level earlier ≠ free }
termination_by item

open Classical in
/-- Length of the longest chain of successive conflicts that ends in `item`. -/
noncomputable def depth (item : ℕ) : ℕ :=
  (Finset.range item).attach.sup fun earlier =>
    if Conflicts earlier.1 item then depth earlier.1 + 1 else 0
termination_by item
decreasing_by exact Finset.mem_range.mp earlier.2

variable {Conflicts} {count item earlier : ℕ}

theorem exists_free (item : ℕ) :
    ∃ free, ∀ earlier < item, Conflicts earlier item → level Conflicts earlier ≠ free := by
  refine ⟨(Finset.range item).sup (level Conflicts) + 1, ?_⟩
  intro earlier isEarlier _ same
  have bound := Finset.le_sup (f := level Conflicts) (Finset.mem_range.mpr isEarlier)
  omega

theorem level_ne (isEarlier : earlier < item) (conflicts : Conflicts earlier item) :
    level Conflicts earlier ≠ level Conflicts item := by
  have free := Nat.sInf_mem (@exists_free Conflicts item)
  rw [level.eq_def Conflicts item]
  exact free earlier isEarlier conflicts

theorem exists_of_lt_level {lower : ℕ} (below : lower < level Conflicts item) :
    ∃ earlier < item, Conflicts earlier item ∧ level Conflicts earlier = lower := by
  rw [level] at below
  have taken := Nat.notMem_of_lt_sInf below
  simp only [Set.mem_ofPred_eq, not_forall, not_not] at taken
  obtain ⟨earlier, isEarlier, conflicts, isLower⟩ := taken
  exact ⟨earlier, isEarlier, conflicts, isLower⟩

theorem level_eq_iff {target : ℕ} : level Conflicts item = target ↔
      (∀ earlier < item, Conflicts earlier item → level Conflicts earlier ≠ target) ∧
        ∀ lower < target, ∃ earlier < item,
          Conflicts earlier item ∧ level Conflicts earlier = lower := by
  constructor
  · rintro rfl
    exact ⟨fun earlier isEarlier => level_ne isEarlier, fun lower => exists_of_lt_level⟩
  · rintro ⟨free, taken⟩
    rcases lt_trichotomy (level Conflicts item) target with below | same | above
    · obtain ⟨earlier, isEarlier, conflicts, sameLevel⟩ := taken _ below
      exact absurd sameLevel (level_ne isEarlier conflicts)
    · exact same
    · obtain ⟨earlier, isEarlier, conflicts, sameLevel⟩ := exists_of_lt_level above
      exact absurd sameLevel (free earlier isEarlier conflicts)

theorem depth_lt (isEarlier : earlier < item) (conflicts : Conflicts earlier item) :
    depth Conflicts earlier < depth Conflicts item := by
  classical
  have bound := Finset.le_sup (f := fun other : { other // other ∈ Finset.range item } =>
    if Conflicts other.1 item then depth Conflicts other.1 + 1 else 0)
    (Finset.mem_attach _ ⟨earlier, Finset.mem_range.mpr isEarlier⟩)
  rw [if_pos conflicts] at bound
  rw [depth.eq_def Conflicts item]
  exact bound

theorem depth_le {bound : ℕ}
    (below : ∀ earlier < item, Conflicts earlier item → depth Conflicts earlier < bound) :
    depth Conflicts item ≤ bound := by
  rw [depth]
  refine Finset.sup_le fun earlier _ => ?_
  split
  next conflicts => exact below earlier.1 (Finset.mem_range.mp earlier.2) conflicts
  next => exact Nat.zero_le _

def Gapless (Conflicts : ℕ → ℕ → Prop) (item : ℕ) : Prop :=
  ∀ lower < depth Conflicts item, ∃ earlier < item,
    Conflicts earlier item ∧ depth Conflicts earlier = lower

/-- Up to the first gap, first fit places every item at its depth. -/
theorem level_eq_depth (gapless : ∀ item < count, Gapless Conflicts item) :
    ∀ item < count, level Conflicts item = depth Conflicts item := by
  intro item
  induction item using Nat.strong_induction_on with
  | _ item ih =>
    intro inRange
    rw [level_eq_iff]
    constructor
    · intro earlier isEarlier conflicts
      rw [ih earlier isEarlier (isEarlier.trans inRange)]
      exact (depth_lt isEarlier conflicts).ne
    · intro lower below
      obtain ⟨earlier, isEarlier, conflicts, isLower⟩ := gapless item inRange lower below
      refine ⟨earlier, isEarlier, conflicts, ?_⟩
      rw [ih earlier isEarlier (isEarlier.trans inRange), isLower]

theorem level_eq_depth_of_ordered
    (ordered : ∀ item < count, ∀ earlier < item, Conflicts earlier item →
      level Conflicts earlier < level Conflicts item) :
    ∀ item < count, level Conflicts item = depth Conflicts item := by
  intro item
  induction item using Nat.strong_induction_on with
  | _ item ih =>
    intro inRange
    apply le_antisymm
    · by_contra! below
      obtain ⟨earlier, isEarlier, conflicts, isLower⟩ := exists_of_lt_level below
      rw [ih earlier isEarlier (isEarlier.trans inRange)] at isLower
      exact absurd isLower (depth_lt isEarlier conflicts).ne
    · apply depth_le
      intro earlier isEarlier conflicts
      rw [← ih earlier isEarlier (isEarlier.trans inRange)]
      exact ordered item inRange earlier isEarlier conflicts

/-- First fit keeps the order of conflicting items exactly when no item has a gap. -/
theorem ordered_iff_gapless : (∀ item < count, ∀ earlier < item, Conflicts earlier item →
        level Conflicts earlier < level Conflicts item) ↔
      ∀ item < count, Gapless Conflicts item := by
  constructor
  · intro ordered item inRange lower below
    have agree := level_eq_depth_of_ordered ordered
    rw [← agree item inRange] at below
    obtain ⟨earlier, isEarlier, conflicts, isLower⟩ := exists_of_lt_level below
    exact ⟨earlier, isEarlier, conflicts, by
      rw [← agree earlier (isEarlier.trans inRange), isLower]⟩
  · intro gapless item inRange earlier isEarlier conflicts
    rw [level_eq_depth gapless item inRange,
      level_eq_depth gapless earlier (isEarlier.trans inRange)]
    exact depth_lt isEarlier conflicts

end FirstFit
