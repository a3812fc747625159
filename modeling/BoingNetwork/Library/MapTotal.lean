import BoingNetwork.Library.FiniteMap
import Mathlib.Algebra.BigOperators.Group.Finset.Basic
import Mathlib.Algebra.BigOperators.Ring.Finset
import Mathlib.Algebra.Order.BigOperators.Group.Finset

/-!
# Totals over finite maps

The sum of a weight over the entries of a map.  Setting or removing one entry changes
the total by the weights of the new and the old entry.
-/

namespace FiniteMap

open Std

universe u v

variable {Key : Type u} {Value : Type v} [Ord Key] [TransOrd Key] [LawfulEqOrd Key]
  [DecidableEq Key] {weight : Value → ℕ}

def entryWeight (weight : Value → ℕ) (entry : Option Value) : ℕ := entry.elim 0 weight

@[simp] theorem entryWeight_none (weight : Value → ℕ) : entryWeight weight none = 0 := rfl

@[simp] theorem entryWeight_some (weight : Value → ℕ) (value : Value) :
    entryWeight weight (some value) = weight value := rfl

theorem entryWeight_map {update : Value → Value} (change : ℕ → ℕ) (zero : change 0 = 0)
    (changes : ∀ value, weight (update value) = change (weight value)) (entry : Option Value) :
    entryWeight weight (entry.map update) = change (entryWeight weight entry) := by
  cases entry with
  | none => exact zero.symm
  | some value => exact changes value

def total (weight : Value → ℕ) (map : ExtTreeMap Key Value) : ℕ :=
  ∑ key ∈ map.keys.toFinset, entryWeight weight map[key]?

theorem total_eq_sum {map : ExtTreeMap Key Value} {keys : Finset Key}
    (covers : map.keys.toFinset ⊆ keys) :
    total weight map = ∑ key ∈ keys, entryWeight weight map[key]? := by
  apply Finset.sum_subset covers
  intro key _ absent
  rw [List.mem_toFinset, ExtTreeMap.mem_keys] at absent
  rw [ExtTreeMap.getElem?_eq_none absent, entryWeight_none]

theorem total_eq_mul {before after : ExtTreeMap Key Value} {factor : ℕ}
    (scaled : ∀ key : Key,
      entryWeight weight after[key]? = factor * entryWeight weight before[key]?) :
    total weight after = factor * total weight before := by
  have covered : before.keys.toFinset ⊆ before.keys.toFinset ∪ after.keys.toFinset :=
    Finset.subset_union_left
  rw [total_eq_sum covered, total_eq_sum (Finset.subset_union_right : _ ⊆ before.keys.toFinset ∪ _),
    Finset.mul_sum]
  exact Finset.sum_congr rfl fun key _ => scaled key

variable (map : ExtTreeMap Key Value) (key : Key)

theorem total_put (entry : Option Value) :
    total weight (put map key entry) + entryWeight weight map[key]? =
      total weight map + entryWeight weight entry := by
  let keys := insert key (map.keys.toFinset ∪ (put map key entry).keys.toFinset)
  have coversBefore : map.keys.toFinset ⊆ keys := by
    intro other member
    exact Finset.mem_insert_of_mem (Finset.mem_union_left _ member)
  have coversAfter : (put map key entry).keys.toFinset ⊆ keys := by
    intro other member
    exact Finset.mem_insert_of_mem (Finset.mem_union_right _ member)
  have member : key ∈ keys := Finset.mem_insert_self _ _
  rw [total_eq_sum coversBefore, total_eq_sum coversAfter, ← Finset.add_sum_erase _ _ member,
    ← Finset.add_sum_erase _ _ member]
  have others : ∑ other ∈ keys.erase key, entryWeight weight (put map key entry)[other]? =
      ∑ other ∈ keys.erase key, entryWeight weight map[other]? := by
    apply Finset.sum_congr rfl
    intro other isOther
    rw [getElem?_put, if_neg (Finset.ne_of_mem_erase isOther).symm]
  rw [others, getElem?_put, if_pos rfl]
  omega

theorem total_insert (value : Value) :
    total weight (map.insert key value) + entryWeight weight map[key]? =
      total weight map + weight value :=
  total_put map key (some value)

theorem total_erase :
    total weight (map.erase key) + entryWeight weight map[key]? = total weight map :=
  total_put map key none

theorem entryWeight_le_total : entryWeight weight map[key]? ≤ total weight map := by
  have removed : total weight (map.erase key) + entryWeight weight map[key]? = total weight map :=
    total_erase map key
  omega

end FiniteMap
