import BoingNetwork.Library.FirstFit
import BoingNetwork.Primitives.Transaction
import Mathlib.Data.List.Range

/-!
# The transaction scheduler

Every pass of the scheduler opens a batch with the first unassigned transaction
and adds the later unassigned ones that conflict with nothing in the batch.  The
batches are the first-fit levels of the conflict relation between access lists.
-/

namespace BoingNetwork

namespace TransactionScheduler

variable (txs : List Transaction)

/-- The access lists of the transactions with these indices overlap. -/
def conflicts (first second : ℕ) : Bool :=
  match txs[first]?, txs[second]? with
  | some first, some second => first.accessList.conflictsWith second.accessList
  | _, _ => false

def fillBatch (batch : List ℕ) (assigned : List Bool) : List ℕ → List ℕ × List Bool
  | [] => (batch, assigned)
  | candidate :: candidates =>
    if assigned.getD candidate false then fillBatch batch assigned candidates
    else if batch.any fun member => conflicts txs member candidate then
      fillBatch batch assigned candidates
    else fillBatch (batch ++ [candidate]) (assigned.set candidate true) candidates

/-- The outer loop: open a batch for every index that is still unassigned. -/
def scheduleFrom (batches : List (List ℕ)) (assigned : List Bool) :
    List ℕ → List (List ℕ)
  | [] => batches
  | index :: indices =>
    if assigned.getD index false then scheduleFrom batches assigned indices
    else
      let (batch, assigned) := fillBatch txs [index] (assigned.set index true)
        (List.range' (index + 1) (txs.length - (index + 1)))
      scheduleFrom (batches ++ [batch]) assigned indices

def schedule : List (List ℕ) :=
  scheduleFrom txs [] (List.replicate txs.length false) (List.range txs.length)

/-! ## Batches are first-fit levels -/

/-- The conflict relation between indices. -/
abbrev Conflict (first second : ℕ) : Prop := conflicts txs first second = true

noncomputable def levelBelow (target bound : ℕ) : List ℕ :=
  (List.range bound).filter fun index => decide (FirstFit.level (Conflict txs) index = target)

noncomputable def assignedBelow (target bound : ℕ) : List Bool :=
  (List.range txs.length).map fun index =>
    decide (FirstFit.level (Conflict txs) index < target ∨
      FirstFit.level (Conflict txs) index = target ∧ index < bound)

variable {txs} {target bound index : ℕ}

theorem getD_assignedBelow (inRange : index < txs.length) :
    (assignedBelow txs target bound).getD index false =
      decide (FirstFit.level (Conflict txs) index < target ∨
        FirstFit.level (Conflict txs) index = target ∧ index < bound) := by
  simp [assignedBelow, inRange]

theorem levelBelow_succ (target bound : ℕ) :
    levelBelow txs target (bound + 1) = levelBelow txs target bound ++
      if FirstFit.level (Conflict txs) bound = target then [bound] else [] := by
  rw [levelBelow, List.range_succ, List.filter_append, levelBelow]
  split
  next isTarget => simp [isTarget]
  next isOther => simp [isOther]

theorem assignedBelow_congr {otherTarget otherBound : ℕ}
    (agree : ∀ index < txs.length, (FirstFit.level (Conflict txs) index < target ∨
          FirstFit.level (Conflict txs) index = target ∧ index < bound) ↔
        FirstFit.level (Conflict txs) index < otherTarget ∨
          FirstFit.level (Conflict txs) index = otherTarget ∧ index < otherBound) :
    assignedBelow txs target bound = assignedBelow txs otherTarget otherBound := by
  apply List.map_congr_left
  intro index member
  rw [decide_eq_decide]
  exact agree index (List.mem_range.mp member)

/-- Passing an index of another level changes no flag. -/
theorem assignedBelow_succ_of_ne (other : FirstFit.level (Conflict txs) bound ≠ target) :
    assignedBelow txs target (bound + 1) = assignedBelow txs target bound := by
  apply assignedBelow_congr
  intro index _
  by_cases same : index = bound
  · subst same
    simp [other]
  · have bounds : index < bound + 1 ↔ index < bound := by omega
    rw [bounds]

theorem assignedBelow_succ_of_eq (isTarget : FirstFit.level (Conflict txs) bound = target) :
    assignedBelow txs target (bound + 1) = (assignedBelow txs target bound).set bound true := by
  apply List.ext_getElem (by simp [assignedBelow])
  intro index _ _
  rw [List.getElem_set]
  split
  next same =>
    subst same
    simp [assignedBelow, isTarget]
  next different =>
    have bounds : index < bound + 1 ↔ index < bound := by omega
    simp only [assignedBelow, List.getElem_map, List.getElem_range, bounds]

theorem level_eq_of_free (above : ¬ FirstFit.level (Conflict txs) index < target)
    (free : ∀ earlier < index, Conflict txs earlier index →
      FirstFit.level (Conflict txs) earlier ≠ target) :
    FirstFit.level (Conflict txs) index = target := by
  by_contra different
  obtain ⟨earlier, isEarlier, conflict, isTarget⟩ :=
    FirstFit.exists_of_lt_level (lt_of_le_of_ne (not_lt.mp above) (Ne.symm different))
  exact free earlier isEarlier conflict isTarget

/-- The inner loop completes the level it is filling. -/
theorem fillBatch_eq (target remaining bound : ℕ) (total : bound + remaining = txs.length) :
    fillBatch txs (levelBelow txs target bound) (assignedBelow txs target bound)
        (List.range' bound remaining) =
      (levelBelow txs target txs.length, assignedBelow txs target txs.length) := by
  induction remaining generalizing bound with
  | zero =>
    obtain rfl : bound = txs.length := by omega
    rfl
  | succ remaining ih =>
    have next := ih (bound + 1) (by omega)
    rw [List.range'_succ, fillBatch, getD_assignedBelow (by omega)]
    by_cases lower : FirstFit.level (Conflict txs) bound < target
    · rw [levelBelow_succ, if_neg lower.ne, List.append_nil,
        assignedBelow_succ_of_ne lower.ne] at next
      simpa [lower] using next
    · have unassigned : ¬ (FirstFit.level (Conflict txs) bound < target ∨
          FirstFit.level (Conflict txs) bound = target ∧ bound < bound) := by
        simp [lower]
      rw [if_neg (by simpa using unassigned)]
      split
      next blocked =>
        obtain ⟨member, inLevel, conflict⟩ := List.any_eq_true.mp blocked
        simp only [levelBelow, List.mem_filter, List.mem_range, decide_eq_true_eq] at inLevel
        have other : FirstFit.level (Conflict txs) bound ≠ target := by
          rw [← inLevel.2]
          exact (FirstFit.level_ne inLevel.1 conflict).symm
        rw [levelBelow_succ, if_neg other, List.append_nil, assignedBelow_succ_of_ne other] at next
        exact next
      next admitted =>
        have isTarget : FirstFit.level (Conflict txs) bound = target := by
          apply level_eq_of_free lower
          intro earlier isEarlier conflict isTarget
          apply admitted
          refine List.any_eq_true.mpr ⟨earlier, ?_, conflict⟩
          simp [levelBelow, isEarlier, isTarget]
        rw [levelBelow_succ, if_pos isTarget, assignedBelow_succ_of_eq isTarget] at next
        exact next

theorem levelBelow_eq_nil (lower : ∀ index < bound, FirstFit.level (Conflict txs) index < target) :
    levelBelow txs target bound = [] := by
  apply List.filter_eq_nil_iff.mpr
  intro index member
  have := lower index (List.mem_range.mp member)
  simp only [decide_eq_true_eq]
  omega

/-- The outer loop completes one level after the other. -/
theorem scheduleFrom_eq (target remaining index : ℕ) (total : index + remaining = txs.length)
    (lower : ∀ earlier < index, FirstFit.level (Conflict txs) earlier < target) :
    ∃ levels, (∀ index < txs.length, FirstFit.level (Conflict txs) index < levels) ∧
      scheduleFrom txs ((List.range target).map fun level => levelBelow txs level txs.length)
          (assignedBelow txs target index) (List.range' index remaining) =
        (List.range levels).map fun level => levelBelow txs level txs.length := by
  induction remaining generalizing index target with
  | zero =>
    obtain rfl : index = txs.length := by omega
    exact ⟨target, lower, rfl⟩
  | succ remaining ih =>
    rw [List.range'_succ, scheduleFrom, getD_assignedBelow (by omega)]
    by_cases assigned : FirstFit.level (Conflict txs) index < target
    · rw [if_pos (by simp [assigned]), ← assignedBelow_succ_of_ne assigned.ne]
      apply ih _ _ (by omega)
      intro earlier isEarlier
      rcases Nat.lt_succ_iff_lt_or_eq.mp isEarlier with before | rfl
      · exact lower earlier before
      · exact assigned
    · have isTarget : FirstFit.level (Conflict txs) index = target :=
        level_eq_of_free assigned fun earlier isEarlier _ => (lower earlier isEarlier).ne
      have opened : [index] = levelBelow txs target (index + 1) := by
        rw [levelBelow_succ, levelBelow_eq_nil lower, if_pos isTarget, List.nil_append]
      have remainingCount : txs.length - (index + 1) = remaining := by omega
      rw [if_neg (by simp [assigned]), opened, ← assignedBelow_succ_of_eq isTarget,
        remainingCount, fillBatch_eq target remaining (index + 1) (by omega)]
      have below : ∀ earlier < index + 1, FirstFit.level (Conflict txs) earlier < target + 1 := by
        intro earlier isEarlier
        rcases Nat.lt_succ_iff_lt_or_eq.mp isEarlier with before | rfl
        · exact (lower earlier before).trans (Nat.lt_succ_self _)
        · exact isTarget ▸ Nat.lt_succ_self _
      have flags : assignedBelow txs target txs.length =
          assignedBelow txs (target + 1) (index + 1) := by
        apply assignedBelow_congr
        intro other inRange
        have := below other
        omega
      rw [flags]
      have step := ih (target + 1) (index + 1) (by omega) below
      rw [List.range_succ, List.map_append] at step
      exact step

theorem schedule_eq_levels (txs : List Transaction) :
    ∃ levels, (∀ index < txs.length, FirstFit.level (Conflict txs) index < levels) ∧
      schedule txs = (List.range levels).map fun level => levelBelow txs level txs.length := by
  have start : List.replicate txs.length false = assignedBelow txs 0 0 := by
    apply List.ext_getElem <;> simp [assignedBelow]
  rw [schedule, start, List.range_eq_range']
  exact scheduleFrom_eq 0 txs.length 0 (by omega) (by simp)

@[simp]
theorem mem_levelBelow : index ∈ levelBelow txs target bound ↔
      index < bound ∧ FirstFit.level (Conflict txs) index = target := by
  simp [levelBelow]

theorem mem_schedule_getD {number : ℕ} : index ∈ (schedule txs).getD number [] ↔
      index < txs.length ∧ FirstFit.level (Conflict txs) index = number := by
  obtain ⟨levels, bounded, isSchedule⟩ := schedule_eq_levels txs
  rw [isSchedule]
  by_cases inRange : number < levels
  · simp [inRange]
  · have noIndex : ¬ (index < txs.length ∧ FirstFit.level (Conflict txs) index = number) := by
      rintro ⟨isIndex, rfl⟩
      exact inRange (bounded index isIndex)
    simp [inRange, noIndex]

theorem conflicts_comm (first second : ℕ) :
    conflicts txs first second = conflicts txs second first := by
  unfold conflicts
  cases txs[first]? <;> cases txs[second]? <;> simp [AccessList.conflictsWith_comm]

theorem schedule_partition (txs : List Transaction) :
    (schedule txs).flatten.Perm (List.range txs.length) := by
  obtain ⟨levels, bounded, isSchedule⟩ := schedule_eq_levels txs
  rw [isSchedule, ← List.flatMap_def]
  have distinct : ((List.range levels).flatMap fun level =>
      levelBelow txs level txs.length).Nodup := by
    refine List.nodup_flatMap.mpr ⟨fun level _ => List.nodup_range.filter _, ?_⟩
    refine List.nodup_range.imp fun {first second} different => ?_
    intro index inFirst inSecond
    rw [mem_levelBelow] at inFirst inSecond
    exact different (inFirst.2.symm.trans inSecond.2)
  refine (List.perm_ext_iff_of_nodup distinct List.nodup_range).mpr fun index => ?_
  simp only [List.mem_flatMap, List.mem_range, mem_levelBelow]
  constructor
  · rintro ⟨level, _, isIndex, _⟩
    exact isIndex
  · intro isIndex
    exact ⟨_, bounded index isIndex, isIndex, rfl⟩

theorem schedule_conflictFree {batch : List ℕ} (isBatch : batch ∈ schedule txs) {first second : ℕ}
    (inFirst : first ∈ batch) (inSecond : second ∈ batch) (different : first ≠ second) :
    ¬ Conflict txs first second := by
  obtain ⟨levels, -, isSchedule⟩ := schedule_eq_levels txs
  rw [isSchedule] at isBatch
  obtain ⟨level, -, rfl⟩ := List.mem_map.mp isBatch
  rw [mem_levelBelow] at inFirst inSecond
  have sameLevel := inFirst.2.trans inSecond.2.symm
  intro conflict
  rcases lt_or_gt_of_ne different with earlier | later
  · exact FirstFit.level_ne earlier conflict sameLevel
  · rw [Conflict, conflicts_comm] at conflict
    exact FirstFit.level_ne later conflict sameLevel.symm

/-- The batches partition the indices, no batch has a conflict, and conflicting
transactions keep their order exactly when no transaction has a gap in the depths
of its earlier conflicts. -/
theorem schedule_keepsOrder_iff (txs : List Transaction) :
    (schedule txs).flatten.Perm (List.range txs.length) ∧
    (∀ batch ∈ schedule txs, ∀ first ∈ batch, ∀ second ∈ batch, first ≠ second →
      ¬ Conflict txs first second) ∧
    ((∀ first second, first < second → second < txs.length → Conflict txs first second →
        ∀ firstBatch secondBatch, first ∈ (schedule txs).getD firstBatch [] →
          second ∈ (schedule txs).getD secondBatch [] → firstBatch < secondBatch) ↔
      ∀ index < txs.length, FirstFit.Gapless (Conflict txs) index) := by
  refine ⟨schedule_partition txs, fun batch isBatch first inFirst second inSecond =>
    schedule_conflictFree isBatch inFirst inSecond, ?_⟩
  rw [← FirstFit.ordered_iff_gapless]
  constructor
  · intro keepsOrder second inRange first earlier conflict
    exact keepsOrder first second earlier inRange conflict _ _
      (mem_schedule_getD.mpr ⟨earlier.trans inRange, rfl⟩) (mem_schedule_getD.mpr ⟨inRange, rfl⟩)
  · intro ordered first second earlier inRange conflict firstBatch secondBatch inFirst inSecond
    rw [← (mem_schedule_getD.mp inFirst).2, ← (mem_schedule_getD.mp inSecond).2]
    exact ordered second inRange first earlier conflict

/-- The transfer of account 2 with nonce 1 is scheduled before the one with nonce
0, which waits for the transfer of account 1 to the same recipient. -/
theorem schedule_overtakes :
    let transfer (sender recipient : AccountId) (nonce : ℕ) : Transaction :=
      { nonce := nonce
        sender := sender
        payload := .transfer recipient 1
        accessList := ⟨[sender, recipient], [sender, recipient]⟩ }
    let txs := [transfer 1 3 0, transfer 2 3 0, transfer 2 4 1]
    schedule txs = [[0, 2], [1]] ∧ Conflict txs 1 2 := by
  decide +kernel

end TransactionScheduler

end BoingNetwork
