import BoingNetwork.Library.HashCollision
import Mathlib.Algebra.Group.Nat.Defs
import Mathlib.Data.Nat.Log

/-!
# Merkle roots of lists

The hashes of a list are combined pair by pair until one is left, and an odd level repeats
its last hash.  The root therefore commits to the list after every level was filled up:
two lists of leaves have one root exactly if they are filled up to the same list, unless
two different inputs of the hash function collide.
-/

namespace MerkleList

universe u v

structure Hashing (Leaf Digest : Type u) (Input : Type v) where
  hash : Input → Digest
  leafInput : Leaf → Input
  pairInput : Digest → Digest → Input

variable {levels : ℕ}

section Pairs

variable {α β : Type u} {list : List α}

/-- Neighbours; the last element of a list of odd length stands beside itself. -/
def pairUp : List α → List (α × α)
  | [] => []
  | [last] => [(last, last)]
  | first :: second :: rest => (first, second) :: pairUp rest

theorem length_pairUp (list : List α) : (pairUp list).length = (list.length + 1) / 2 := by
  fun_induction pairUp list with
  | case1 => simp
  | case2 last => simp
  | case3 first second rest ih =>
    simp only [List.length_cons, ih]
    omega

theorem pairUp_eq_nil_iff (list : List α) : pairUp list = [] ↔ list = [] := by
  rw [← List.length_eq_zero_iff, length_pairUp, ← List.length_eq_zero_iff]
  omega

theorem pairUp_map (f : α → β) (list : List α) :
    pairUp (list.map f) = (pairUp list).map (Prod.map f f) := by
  fun_induction pairUp list with
  | case1 => rfl
  | case2 last => rfl
  | case3 first second rest ih =>
    simp [pairUp, ih]

theorem mem_of_mem_pairUp {pair : α × α} (member : pair ∈ pairUp list) :
    pair.1 ∈ list ∧ pair.2 ∈ list := by
  fun_induction pairUp list with
  | case1 => cases member
  | case2 last => simp_all
  | case3 first second rest ih =>
    rcases List.mem_cons.mp member with rfl | inRest
    · simp
    · have := ih inRest
      simp [this]

def complete : {α : Type u} → ℕ → List α → List α
  | _, 0, list => list
  | _, levels + 1, list =>
    (complete levels (pairUp list)).flatMap fun pair => [pair.1, pair.2]

theorem mem_of_mem_complete (levels : ℕ) {element : α} (member : element ∈ complete levels list) :
    element ∈ list := by
  induction levels generalizing α with
  | zero => exact member
  | succ levels ih =>
    obtain ⟨pair, isPair, isElement⟩ := List.mem_flatMap.mp member
    obtain ⟨inFirst, inSecond⟩ := mem_of_mem_pairUp (ih isPair)
    simp only [List.mem_cons, List.not_mem_nil, or_false] at isElement
    rcases isElement with rfl | rfl
    · exact inFirst
    · exact inSecond

theorem complete_eq_nil_iff (levels : ℕ) (list : List α) :
    complete levels list = [] ↔ list = [] := by
  induction levels generalizing α with
  | zero => rfl
  | succ levels ih =>
    rw [complete, List.flatMap_eq_nil_iff, ← pairUp_eq_nil_iff, ← ih]
    constructor
    · intro none_
      exact List.eq_nil_iff_forall_not_mem.mpr fun pair member => by simpa using none_ pair member
    · intro isNil
      simp [isNil]

theorem clog_length_pairUp (isDepth : Nat.clog 2 list.length = levels + 1) :
    Nat.clog 2 (pairUp list).length = levels := by
  have many : 2 ≤ list.length := by
    by_contra few
    rw [Nat.clog_of_right_le_one (by omega)] at isDepth
    cases isDepth
  rw [Nat.clog_of_two_le (by decide) many, Nat.add_right_cancel_iff] at isDepth
  rw [length_pairUp]
  exact isDepth

theorem length_le_one_of_clog (isDepth : Nat.clog 2 list.length = 0) : list.length ≤ 1 :=
  (Nat.clog_le_iff_le_pow (by decide)).mp isDepth.le

theorem length_complete (nonempty : list ≠ []) (isDepth : Nat.clog 2 list.length = levels) :
    (complete levels list).length = 2 ^ levels := by
  induction levels generalizing α with
  | zero =>
    have short := length_le_one_of_clog isDepth
    have positive := List.length_pos_iff.mpr nonempty
    rw [complete]
    omega
  | succ levels ih =>
    have pairs := ih ((pairUp_eq_nil_iff list).not.mpr nonempty)
      (clog_length_pairUp isDepth)
    rw [complete, List.length_flatMap, Nat.pow_succ, ← pairs]
    simp only [List.length_cons, List.length_nil, List.map_const', List.sum_replicate_nat]

theorem complete_map (levels : ℕ) (f : α → β) (list : List α) :
    complete levels (list.map f) = (complete levels list).map f := by
  induction levels generalizing α β with
  | zero => rfl
  | succ levels ih =>
    rw [complete, pairUp_map, ih, complete, List.flatMap_map, List.map_flatMap]
    rfl

theorem eq_of_map_eq {γ : Type v} {f : α → γ} {first second : List α}
    (injective : ∀ left ∈ first, ∀ right ∈ second, f left = f right → left = right)
    (same : first.map f = second.map f) : first = second := by
  induction first generalizing second with
  | nil => exact (List.map_eq_nil_iff.mp same.symm).symm
  | cons left rest ih =>
    cases second with
    | nil => simp at same
    | cons right others =>
      simp only [List.map_cons, List.cons.injEq] at same
      simp only [List.mem_cons, forall_eq_or_imp] at injective
      rw [injective.1.1 same.1, ih (fun other isOther =>
        (injective.2 other isOther).2) same.2]

theorem flatten_pairs_injective {first second : List (α × α)}
    (same : first.flatMap (fun pair => [pair.1, pair.2]) =
      second.flatMap fun pair => [pair.1, pair.2]) : first = second := by
  induction first generalizing second with
  | nil => cases second <;> simp_all
  | cons pair rest ih =>
    cases second with
    | nil => simp at same
    | cons other others =>
      simp only [List.flatMap_cons, List.cons_append, List.nil_append, List.cons.injEq] at same
      rw [Prod.ext same.1 same.2.1, ih same.2.2]

/-- The list after every level was filled up. -/
def padded (list : List α) : List α := complete (Nat.clog 2 list.length) list

end Pairs

variable {Leaf Digest : Type u} {Input : Type v} {hashes : List Digest}

namespace Hashing

variable (hashing : Hashing Leaf Digest Input)

def level (hashes : List Digest) : List Digest :=
  (pairUp hashes).map fun pair => hashing.hash (hashing.pairInput pair.1 pair.2)

def climb : ℕ → List Digest → List Digest
  | 0, hashes => hashes
  | levels + 1, hashes => climb levels (hashing.level hashes)

def pairInputs : ℕ → List Digest → List Input
  | 0, _ => []
  | levels + 1, hashes =>
    (pairUp hashes).map (fun pair => hashing.pairInput pair.1 pair.2) ++
      pairInputs levels (hashing.level hashes)

def leafHashes (leaves : List Leaf) : List Digest :=
  leaves.map fun leaf => hashing.hash (hashing.leafInput leaf)

def rootInputs (leaves : List Leaf) : List Input :=
  leaves.map hashing.leafInput ++
    hashing.pairInputs (Nat.clog 2 leaves.length) (hashing.leafHashes leaves)

/-- The single hash at the top; `none` for the empty list. -/
def root (leaves : List Leaf) : Option Digest :=
  (hashing.climb (Nat.clog 2 leaves.length) (hashing.leafHashes leaves)).head?

variable {hashing}

theorem climb_add (levels more : ℕ) (hashes : List Digest) :
    hashing.climb (levels + more) hashes = hashing.climb more (hashing.climb levels hashes) := by
  induction levels generalizing hashes with
  | zero => rw [Nat.zero_add, climb]
  | succ levels ih =>
    rw [Nat.succ_add, climb, ih, climb]

theorem climb_eq_nil_iff (levels : ℕ) (hashes : List Digest) :
    hashing.climb levels hashes = [] ↔ hashes = [] := by
  induction levels generalizing hashes with
  | zero => rfl
  | succ levels ih =>
    rw [climb, ih, level, List.map_eq_nil_iff, pairUp_eq_nil_iff]

theorem pairInputs_add (levels more : ℕ) (hashes : List Digest) :
    hashing.pairInputs (levels + more) hashes = hashing.pairInputs levels hashes ++
        hashing.pairInputs more (hashing.climb levels hashes) := by
  induction levels generalizing hashes with
  | zero => rw [Nat.zero_add, pairInputs, climb, List.nil_append]
  | succ levels ih =>
    rw [Nat.succ_add, pairInputs, ih, pairInputs, climb, List.append_assoc]

/-- After as many levels as the logarithm of the length says, one hash is left. -/
theorem length_climb (nonempty : hashes ≠ []) (isDepth : Nat.clog 2 hashes.length = levels) :
    (hashing.climb levels hashes).length = 1 := by
  induction levels generalizing hashes with
  | zero =>
    have short := length_le_one_of_clog isDepth
    have positive := List.length_pos_iff.mpr nonempty
    rw [climb]
    omega
  | succ levels ih =>
    apply ih
    · rw [level, Ne, List.map_eq_nil_iff, pairUp_eq_nil_iff]
      exact nonempty
    · rw [level, List.length_map]
      exact clog_length_pairUp isDepth

theorem climb_eq_of_root_eq {xs ys : List Leaf} (xsNonempty : xs ≠ []) (ysNonempty : ys ≠ [])
    (same : hashing.root xs = hashing.root ys) :
    hashing.climb (Nat.clog 2 xs.length) (hashing.leafHashes xs) =
      hashing.climb (Nat.clog 2 ys.length) (hashing.leafHashes ys) := by
  have single : ∀ {leaves : List Leaf}, leaves ≠ [] →
      ∃ digest,
        hashing.climb (Nat.clog 2 leaves.length) (hashing.leafHashes leaves) = [digest] := by
    intro leaves nonempty
    apply List.length_eq_one_iff.mp
    apply length_climb
    · rwa [leafHashes, Ne, List.map_eq_nil_iff]
    · rw [leafHashes, List.length_map]
  obtain ⟨first, isFirst⟩ := single xsNonempty
  obtain ⟨second, isSecond⟩ := single ysNonempty
  rw [root, root, isFirst, isSecond, List.head?_cons, List.head?_cons, Option.some.injEq] at same
  rw [isFirst, isSecond, same]

theorem climb_congr {first second : List Digest}
    (same : complete levels first = complete levels second) :
    hashing.climb levels first = hashing.climb levels second := by
  induction levels generalizing first second with
  | zero => exact same
  | succ levels ih =>
    apply ih
    rw [level, complete_map, flatten_pairs_injective same, ← complete_map, level]

theorem complete_eq_of_climb_eq
    (pairInjective : ∀ left right otherLeft otherRight,
      hashing.pairInput left right = hashing.pairInput otherLeft otherRight →
        left = otherLeft ∧ right = otherRight) {inputs : List Input}
    (collisionFree : ¬ HashCollision hashing.hash inputs) {first second : List Digest}
    (firstInputs : hashing.pairInputs levels first ⊆ inputs)
    (secondInputs : hashing.pairInputs levels second ⊆ inputs)
    (same : hashing.climb levels first = hashing.climb levels second) :
    complete levels first = complete levels second := by
  induction levels generalizing first second with
  | zero => exact same
  | succ levels ih =>
    rw [pairInputs, List.append_subset] at firstInputs secondInputs
    have above := ih firstInputs.2 secondInputs.2 same
    have pairsInInputs : ∀ {list : List Digest},
        (pairUp list).map (fun pair => hashing.pairInput pair.1 pair.2) ⊆ inputs →
        ∀ pair ∈ complete levels (pairUp list), hashing.pairInput pair.1 pair.2 ∈ inputs := by
      intro list contained pair member
      exact contained (List.mem_map_of_mem (mem_of_mem_complete levels member))
    rw [level, complete_map, level, complete_map] at above
    have samePairs : complete levels (pairUp first) = complete levels (pairUp second) := by
      refine eq_of_map_eq ?_ above
      intro left isLeft right isRight sameHash
      have sameInput := HashCollision.eq_of_not collisionFree
        (pairsInInputs firstInputs.1 left isLeft) (pairsInInputs secondInputs.1 right isRight)
        sameHash
      obtain ⟨sameFirst, sameSecond⟩ := pairInjective _ _ _ _ sameInput
      exact Prod.ext sameFirst sameSecond
    rw [complete, samePairs, complete]

theorem mem_climb_succ {digest : Digest} (member : digest ∈ hashing.climb (levels + 1) hashes) :
    ∃ left right, hashing.pairInput left right ∈ hashing.pairInputs (levels + 1) hashes ∧
      hashing.hash (hashing.pairInput left right) = digest := by
  induction levels generalizing hashes with
  | zero =>
    obtain ⟨pair, isPair, rfl⟩ := List.mem_map.mp member
    exact ⟨pair.1, pair.2, List.mem_append_left _ (List.mem_map_of_mem isPair), rfl⟩
  | succ levels ih =>
    obtain ⟨left, right, isInput, isHash⟩ := ih member
    exact ⟨left, right, List.mem_append_right _ isInput, isHash⟩

section Leaves

variable {xs ys : List Leaf}

variable (pairInjective : ∀ left right otherLeft otherRight,
  hashing.pairInput left right = hashing.pairInput otherLeft otherRight →
    left = otherLeft ∧ right = otherRight)

include pairInjective

/-- Lists of different depth cannot share a root: a leaf would be hashed like a pair. -/
theorem collision_of_depth_lt
    (leafNoPair : ∀ leaf ∈ xs, ∀ left right,
      hashing.leafInput leaf ≠ hashing.pairInput left right) (nonempty : ys ≠ [])
    (deeper : Nat.clog 2 xs.length < Nat.clog 2 ys.length)
    (same : hashing.climb (Nat.clog 2 xs.length) (hashing.leafHashes xs) =
      hashing.climb (Nat.clog 2 ys.length) (hashing.leafHashes ys)) :
    HashCollision hashing.hash (hashing.rootInputs xs ++ hashing.rootInputs ys) := by
  by_contra collisionFree
  obtain ⟨more, depth⟩ := Nat.exists_eq_add_of_lt deeper
  have depth : Nat.clog 2 ys.length = (more + 1) + Nat.clog 2 xs.length := by omega
  have allInputs : hashing.pairInputs (Nat.clog 2 ys.length) (hashing.leafHashes ys) ⊆
      hashing.rootInputs xs ++ hashing.rootInputs ys :=
    List.subset_append_of_subset_right _ (List.subset_append_right _ _)
  rw [depth, pairInputs_add, List.append_subset] at allInputs
  rw [depth, climb_add] at same
  have filled := complete_eq_of_climb_eq pairInjective collisionFree
    (List.subset_append_of_subset_left _ (List.subset_append_right _ _)) allInputs.2 same
  have someHash : complete (Nat.clog 2 xs.length)
      (hashing.climb (more + 1) (hashing.leafHashes ys)) ≠ [] := by
    rw [Ne, complete_eq_nil_iff, climb_eq_nil_iff, leafHashes, List.map_eq_nil_iff]
    exact nonempty
  obtain ⟨digest, isFilled⟩ := List.exists_mem_of_ne_nil _ someHash
  obtain ⟨left, right, isPair, pairHash⟩ := mem_climb_succ (mem_of_mem_complete _ isFilled)
  rw [← filled] at isFilled
  obtain ⟨leaf, isLeaf, leafHash⟩ := List.mem_map.mp (mem_of_mem_complete _ isFilled)
  apply leafNoPair leaf isLeaf left right
  apply HashCollision.eq_of_not collisionFree _ (allInputs.1 isPair) (leafHash.trans pairHash.symm)
  exact List.mem_append_left _ (List.mem_append_left _ (List.mem_map_of_mem isLeaf))

/-- Two lists have one root exactly if they are filled up to the same list. -/
theorem root_eq_iff
    (leafInjective : ∀ x ∈ xs, ∀ y ∈ ys, hashing.leafInput x = hashing.leafInput y → x = y)
    (leafNoPair : ∀ leaf ∈ xs ++ ys, ∀ left right,
      hashing.leafInput leaf ≠ hashing.pairInput left right) (xsNonempty : xs ≠ [])
    (ysNonempty : ys ≠ []) (collisionFree :
      ¬ HashCollision hashing.hash (hashing.rootInputs xs ++ hashing.rootInputs ys)) :
    hashing.root xs = hashing.root ys ↔ padded xs = padded ys := by
  constructor
  · intro sameRoot
    have same := climb_eq_of_root_eq xsNonempty ysNonempty sameRoot
    rcases lt_trichotomy (Nat.clog 2 xs.length) (Nat.clog 2 ys.length) with shorter | equal | longer
    · exact absurd (collision_of_depth_lt pairInjective (fun leaf isLeaf =>
        leafNoPair leaf (List.mem_append_left _ isLeaf)) ysNonempty shorter same) collisionFree
    · rw [← equal] at same
      have filled := complete_eq_of_climb_eq pairInjective collisionFree
        (List.subset_append_of_subset_left _ (List.subset_append_right _ _))
        (List.subset_append_of_subset_right _ (equal ▸ List.subset_append_right _ _)) same
      rw [leafHashes, complete_map, leafHashes, complete_map] at filled
      rw [padded, padded, ← equal]
      refine eq_of_map_eq ?_ filled
      intro x isX y isY sameHash
      have xLeaf := mem_of_mem_complete _ isX
      have yLeaf := mem_of_mem_complete _ isY
      apply leafInjective x xLeaf y yLeaf
      apply HashCollision.eq_of_not collisionFree _ _ sameHash
      · exact List.mem_append_left _ (List.mem_append_left _ (List.mem_map_of_mem xLeaf))
      · exact List.mem_append_right _ (List.mem_append_left _ (List.mem_map_of_mem yLeaf))
    · have collision := collision_of_depth_lt pairInjective (fun leaf isLeaf =>
        leafNoPair leaf (List.mem_append_right _ isLeaf)) xsNonempty longer same.symm
      exact absurd (collision.mono (by simp)) collisionFree
  · intro samePadded
    have depth : Nat.clog 2 xs.length = Nat.clog 2 ys.length := by
      have length := congrArg List.length samePadded
      rw [padded, length_complete xsNonempty rfl, padded, length_complete ysNonempty rfl] at length
      exact Nat.pow_right_injective le_rfl length
    rw [padded, padded, depth] at samePadded
    rw [root, root, depth]
    congr 1
    apply climb_congr
    rw [leafHashes, complete_map, samePadded, ← complete_map, leafHashes]

end Leaves

end Hashing

end MerkleList
