import BoingNetwork.Library.MerkleList
import Mathlib.Data.List.Infix

/-!
# Paths in Merkle trees of lists

A path holds the siblings of a hash on the way to the root, and the bits of an index tell the
sides.  A path that leads to the root of a list reads the tree: unless two hashed inputs
collide, it starts at the hash that stands, as many levels below the root as the path is
long, at the place that the low bits of the index name.
-/

namespace MerkleList

universe u v

variable {α : Type u} {index levels : ℕ} (list : List α)

theorem flatMap_pairUp_extends : list <+: (pairUp list).flatMap fun pair => [pair.1, pair.2] := by
  fun_induction pairUp list with
  | case1 => exact ⟨[], rfl⟩
  | case2 last => exact ⟨[last], rfl⟩
  | case3 first second rest ih =>
    obtain ⟨filling, isFilled⟩ := ih
    exact ⟨filling, by simp [isFilled]⟩

/-- Filling up a list only adds to its end. -/
theorem complete_extends (levels : ℕ) (list : List α) : list <+: complete levels list := by
  induction levels generalizing α with
  | zero => exact List.prefix_rfl
  | succ levels ih =>
    obtain ⟨filling, isFilled⟩ := ih (pairUp list)
    apply (flatMap_pairUp_extends list).trans
    rw [complete, ← isFilled, List.flatMap_append]
    exact List.prefix_append _ _

theorem getElem?_flatMap_pairs (pairs : List (α × α)) (index : ℕ) :
    (pairs.flatMap fun pair => [pair.1, pair.2])[index]? =
      pairs[index / 2]?.map fun pair => if index % 2 = 0 then pair.1 else pair.2 := by
  induction pairs generalizing index with
  | nil => rfl
  | cons pair pairs ih =>
    match index with
    | 0 => rfl
    | 1 => rfl
    | index + 2 =>
      have half : (index + 2) / 2 = index / 2 + 1 := by omega
      have parity : (index + 2) % 2 = index % 2 := by omega
      simp [half, parity, ih]

theorem eq_singleton_of_clog {list : List α} {element : α} (isDepth : Nat.clog 2 list.length = 0)
    (isElement : list[index]? = some element) : list = [element] := by
  have short := length_le_one_of_clog isDepth
  have inside := (List.getElem?_eq_some_iff.mp isElement).1
  obtain ⟨only, rfl⟩ := List.length_eq_one_iff.mp (by omega : list.length = 1)
  obtain rfl : index = 0 := by simpa using inside
  simpa using isElement

theorem getElem?_pairUp (index : ℕ) : (pairUp list)[index]? =
      list[2 * index]?.map fun first => (first, list[2 * index + 1]?.getD first) := by
  fun_induction pairUp list generalizing index with
  | case1 => rfl
  | case2 last =>
    cases index with
    | zero => rfl
    | succ index => simp
  | case3 first second rest ih =>
    cases index with
    | zero => rfl
    | succ index => simp [Nat.mul_add, ih]

namespace Hashing

variable {Leaf Digest : Type u} {Input : Type v} (hashing : Hashing Leaf Digest Input)

def reduce (fallback : Digest) : ℕ → List Digest → Digest
  | _, [hash] => hash
  | 0, _ => fallback
  | levels + 1, hashes => reduce fallback levels (hashing.level hashes)

/-- Folds the siblings into a hash; the parity of the index gives the side. -/
def ascend (hash : Digest) (index : ℕ) : List Digest → Digest
  | [] => hash
  | sibling :: siblings =>
    ascend (hashing.hash (if index % 2 = 0 then hashing.pairInput hash sibling
      else hashing.pairInput sibling hash)) (index / 2) siblings

/-- What is hashed on the way up. -/
def ascendInputs (hash : Digest) (index : ℕ) : List Digest → List Input
  | [] => []
  | sibling :: siblings =>
    let input := if index % 2 = 0 then hashing.pairInput hash sibling
      else hashing.pairInput sibling hash
    input :: ascendInputs (hashing.hash input) (index / 2) siblings

def siblings : ℕ → List Digest → ℕ → List Digest
  | 0, _, _ => []
  | levels + 1, hashes, index =>
    match hashes[index]? with
    | some hash =>
      if hashes.length > 1 then
        hashes[if index % 2 = 0 then index + 1 else index - 1]?.getD hash ::
          siblings levels (hashing.level hashes) (index / 2)
      else []
    | none => []

variable {hashing} {hashes : List Digest} {hash : Digest}

theorem reduce_eq_climb (fallback : Digest) (nonempty : hashes ≠ [])
    (enough : Nat.clog 2 hashes.length ≤ levels) :
    hashing.climb (Nat.clog 2 hashes.length) hashes = [hashing.reduce fallback levels hashes] := by
  induction levels generalizing hashes with
  | zero =>
    match hashes with
    | [hash] => rfl
    | first :: second :: rest =>
      have positive := Nat.clog_pos (b := 2) (n := (first :: second :: rest).length)
        (by decide) (by simp)
      omega
  | succ levels ih =>
    match hashes with
    | [hash] => rfl
    | first :: second :: rest =>
      have positive := Nat.clog_pos (b := 2) (n := (first :: second :: rest).length)
        (by decide) (by simp)
      obtain ⟨depth, isDepth⟩ := Nat.exists_eq_succ_of_ne_zero positive.ne'
      have above : Nat.clog 2 (hashing.level (first :: second :: rest)).length = depth := by
        rw [level, List.length_map]
        exact clog_length_pairUp isDepth
      rw [isDepth] at enough ⊢
      rw [climb, ← above]
      apply ih
      · simp [level, pairUp]
      · omega

theorem clog_length_climb {more : ℕ} (isDepth : Nat.clog 2 hashes.length = levels + more) :
    Nat.clog 2 (hashing.climb levels hashes).length = more ∧
      (hashing.climb levels hashes).length ≤ hashes.length := by
  induction levels generalizing hashes with
  | zero => exact ⟨by rwa [Nat.zero_add] at isDepth, le_rfl⟩
  | succ levels ih =>
    have pairs : Nat.clog 2 (hashing.level hashes).length = levels + more := by
      rw [level, List.length_map]
      exact clog_length_pairUp (isDepth.trans (Nat.succ_add _ _))
    have shorter : (hashing.level hashes).length ≤ hashes.length := by
      rw [level, List.length_map, length_pairUp]
      omega
    exact ⟨(ih pairs).1, (ih pairs).2.trans shorter⟩

theorem getElem?_level (isHash : hashes[index]? = some hash) :
    (hashing.level hashes)[index / 2]? = some (hashing.hash
      (if index % 2 = 0 then hashing.pairInput hash (hashes[index + 1]?.getD hash)
        else hashing.pairInput (hashes[index - 1]?.getD hash) hash)) := by
  rw [level, List.getElem?_map, getElem?_pairUp]
  split
  next even =>
    rw [show 2 * (index / 2) = index by omega, isHash]
    rfl
  next odd =>
    have before : index - 1 < hashes.length := by
      have inside := (List.getElem?_eq_some_iff.mp isHash).1
      omega
    rw [show 2 * (index / 2) = index - 1 by omega, show index - 1 + 1 = index by omega, isHash,
      List.getElem?_eq_getElem before]
    rfl

/-- The siblings lead to the root, and there are as many as there are levels. -/
theorem ascend_siblings (enough : Nat.clog 2 hashes.length ≤ levels)
    (isHash : hashes[index]? = some hash) :
    (hashing.siblings levels hashes index).length = Nat.clog 2 hashes.length ∧
      [hashing.ascend hash index (hashing.siblings levels hashes index)] =
        hashing.climb (Nat.clog 2 hashes.length) hashes := by
  induction levels generalizing hashes index hash with
  | zero =>
    have isDepth : Nat.clog 2 hashes.length = 0 := by omega
    rw [isDepth, eq_singleton_of_clog isDepth isHash]
    exact ⟨rfl, rfl⟩
  | succ levels ih =>
    rw [siblings, isHash]
    cases isDepth : Nat.clog 2 hashes.length with
    | zero =>
      rw [eq_singleton_of_clog isDepth isHash]
      exact ⟨rfl, rfl⟩
    | succ depth =>
      have many : hashes.length > 1 := by
        by_contra few
        rw [Nat.clog_of_right_le_one (by omega)] at isDepth
        cases isDepth
      have above : Nat.clog 2 (hashing.level hashes).length = depth := by
        rw [level, List.length_map]
        exact clog_length_pairUp isDepth
      have fewer : Nat.clog 2 (hashing.level hashes).length ≤ levels := by omega
      have parent := ih fewer (getElem?_level isHash)
      rw [above] at parent
      simp only [if_pos many, List.length_cons, parent.1, ascend, climb, ← parent.2, true_and]
      split <;> rfl

variable {inputs : List Input}

/-- A path that leads to the root starts at a hash of the level as many levels below. -/
theorem getElem?_complete_of_ascend
    (pairInjective : ∀ left right otherLeft otherRight,
      hashing.pairInput left right = hashing.pairInput otherLeft otherRight →
        left = otherLeft ∧ right = otherRight) (collisionFree : ¬ HashCollision hashing.hash inputs)
    {siblings : List Digest} {root : Digest}
    (treeInputs : hashing.pairInputs siblings.length hashes ⊆ inputs)
    (pathInputs : hashing.ascendInputs hash index siblings ⊆ inputs)
    (isRoot : hashing.climb siblings.length hashes = [root])
    (leads : hashing.ascend hash index siblings = root) :
    (complete siblings.length hashes)[index % 2 ^ siblings.length]? = some hash := by
  induction siblings generalizing hash index hashes with
  | nil =>
    obtain rfl : hashes = [root] := isRoot
    obtain rfl : hash = root := leads
    simp [complete, Nat.mod_one]
  | cons sibling siblings ih =>
    rw [List.length_cons, pairInputs, List.append_subset] at treeInputs
    rw [ascendInputs, List.cons_subset] at pathInputs
    have above := ih treeInputs.2 pathInputs.2 isRoot leads
    rw [level, complete_map, List.getElem?_map, Option.map_eq_some_iff] at above
    obtain ⟨pair, isPair, samePair⟩ := above
    have pairInput : hashing.pairInput pair.1 pair.2 ∈ inputs :=
      treeInputs.1 (List.mem_map_of_mem (mem_of_mem_complete _ (List.mem_of_getElem? isPair)))
    have sameInput := HashCollision.eq_of_not collisionFree pairInput pathInputs.1 samePair
    have half : index % 2 ^ (siblings.length + 1) / 2 = index / 2 % 2 ^ siblings.length := by
      rw [Nat.pow_succ', Nat.mod_mul_right_div_self]
    have parity : index % 2 ^ (siblings.length + 1) % 2 = index % 2 :=
      Nat.mod_mod_of_dvd _ ⟨2 ^ siblings.length, Nat.pow_succ'⟩
    rw [List.length_cons, complete, getElem?_flatMap_pairs, half, parity, isPair,
      Option.map_some, Option.some.injEq]
    split
    next even =>
      rw [if_pos even] at sameInput
      exact (pairInjective _ _ _ _ sameInput).1
    next odd =>
      rw [if_neg odd] at sameInput
      exact (pairInjective _ _ _ _ sameInput).2

end Hashing

end MerkleList
