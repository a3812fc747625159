import Mathlib.Data.Finset.Card
import Mathlib.Data.List.Nodup
import Std.Data.ExtTreeMap

/-!
# Finite maps

Pairs as keys of extensional tree maps, entries that are set or removed one at a time,
and the finite set of keys whose entry satisfies a predicate.
-/

namespace FiniteMap

open Std

universe u v

section PairKeys

/-! Pairs are compared by the first component, then by the second. -/

variable {First : Type u} {Second : Type v} [Ord First] [Ord Second]

instance pairOrd : Ord (First × Second) := lexOrd

instance pairTransOrd [TransOrd First] [TransOrd Second] :
    TransOrd (First × Second) :=
  inferInstanceAs (TransCmp (compareLex (compareOn Prod.fst) (compareOn Prod.snd)))

instance pairLawfulEqOrd [LawfulEqOrd First] [LawfulEqOrd Second] :
    LawfulEqOrd (First × Second) where
  compare_self := by simp [compare, compareLex, compareOn]
  eq_of_compare {left right} same := by
    have parts : compare left.1 right.1 = .eq ∧ compare left.2 right.2 = .eq := by
      simpa [compare, compareLex, compareOn, Ordering.then_eq_eq] using same
    exact Prod.ext (LawfulEqOrd.eq_of_compare parts.1) (LawfulEqOrd.eq_of_compare parts.2)

end PairKeys

variable {Key : Type u} {Value : Type v} [Ord Key] [TransOrd Key]
  {map : ExtTreeMap Key Value} (change : Value → Value)

theorem nodup_map_fst_toList (map : ExtTreeMap Key Value) :
    (map.toList.map Prod.fst).Nodup := by
  rw [ExtTreeMap.map_fst_toList_eq_keys]
  exact ExtTreeMap.nodup_keys

omit [Ord Key] [TransOrd Key] in
theorem foldr_values (tree : DTreeMap.Internal.Impl Key fun _ => Value)
    (pairs : List (Key × Value)) :
    tree.foldr (fun _ value rest => value :: rest) (pairs.map Prod.snd) =
      (tree.foldr (fun key value rest => (key, value) :: rest) pairs).map Prod.snd := by
  induction tree generalizing pairs with
  | leaf => rfl
  | inner size key value left right leftHypothesis rightHypothesis =>
    calc
      _ = left.foldr (fun _ value rest => value :: rest)
          (value :: right.foldr (fun _ value rest => value :: rest) (pairs.map Prod.snd)) := rfl
      _ = _ := by
          rw [rightHypothesis]
          exact leftHypothesis
            ((key, value) :: right.foldr (fun key value rest => (key, value) :: rest) pairs)

theorem values_eq_map_toList (map : ExtTreeMap Key Value) :
    map.values = map.toList.map Prod.snd := by
  obtain ⟨⟨inner⟩⟩ := map
  induction inner using Quotient.ind with
  | _ tree => exact foldr_values tree.inner []

theorem mem_values [LawfulEqOrd Key] {value : Value} :
    value ∈ map.values ↔ ∃ key : Key, map[key]? = some value := by
  rw [values_eq_map_toList, List.mem_map]
  constructor
  · rintro ⟨⟨key, _⟩, member, rfl⟩
    exact ⟨key, ExtTreeMap.mem_toList_iff_getElem?_eq_some.mp member⟩
  · rintro ⟨key, found⟩
    exact ⟨(key, value), ExtTreeMap.mem_toList_iff_getElem?_eq_some.mpr found, rfl⟩

section Map

variable {other : Value → Value}

theorem values_map : (map.map fun _ => change).values = map.values.map change := by
  simp [values_eq_map_toList, ExtTreeMap.toList_map]

theorem map_filter {keep : Value → Bool} (same : ∀ value, keep (change value) = keep value) :
    (map.map fun _ => change).filter (fun _ => keep) =
      (map.filter fun _ => keep).map fun _ => change := by
  apply ExtTreeMap.ext_toList
  simp [ExtTreeMap.toList_map, ExtTreeMap.toList_filter, List.filter_map,
    Function.comp_def, same]

variable [LawfulEqOrd Key] (key : Key)

theorem map_insert (value : Value) : (map.map fun _ => change).insert key (change value) =
      (map.insert key value).map fun _ => change := by
  apply ExtTreeMap.ext_getElem?
  intro other
  simp only [ExtTreeMap.getElem?_insert, ExtTreeMap.getElem?_map]
  split <;> rfl

theorem map_erase :
    (map.map fun _ => change).erase key = (map.erase key).map fun _ => change := by
  apply ExtTreeMap.ext_getElem?
  intro other
  simp only [ExtTreeMap.getElem?_erase, ExtTreeMap.getElem?_map]
  split <;> rfl

theorem map_comm (comm : ∀ value, other (change value) = change (other value)) :
    (map.map fun _ => change).map (fun _ => other) =
      (map.map fun _ => other).map fun _ => change := by
  apply ExtTreeMap.ext_getElem?
  intro key
  simp [ExtTreeMap.getElem?_map, comm]

theorem map_eq_self (same : ∀ (key : Key) (value : Value), map[key]? = some value →
    change value = value) : (map.map fun _ => change) = map := by
  apply ExtTreeMap.ext_getElem?
  intro key
  rw [ExtTreeMap.getElem?_map]
  cases found : map[key]? with
  | none => rfl
  | some value => exact congrArg some (same key value found)

end Map

theorem ofList_of_perm [LawfulEqOrd Key] [DecidableEq Key] {entries : List (Key × Value)}
    (order : entries.Perm map.toList) : ExtTreeMap.ofList entries = map := by
  apply ExtTreeMap.ext_getElem?
  intro key
  cases found : map[key]? with
  | some value =>
    have distinct : entries.Pairwise fun first second => ¬compare first.1 second.1 = .eq :=
      order.symm.pairwise ExtTreeMap.distinct_keys_toList
        fun differ same => differ (OrientedCmp.eq_symm same)
    exact ExtTreeMap.getElem?_ofList_of_mem ReflCmp.compare_self distinct
      (order.mem_iff.mpr (ExtTreeMap.mem_toList_iff_getElem?_eq_some.mpr found))
  | none =>
    apply ExtTreeMap.getElem?_ofList_of_contains_eq_false
    simp only [List.contains_eq_mem, decide_eq_false_iff_not]
    rw [(order.map Prod.fst).mem_iff, ExtTreeMap.map_fst_toList_eq_keys,
      ExtTreeMap.mem_keys, ExtTreeMap.mem_iff_isSome_getElem?, found]
    exact Bool.false_ne_true

section Put

def put (map : ExtTreeMap Key Value) (key : Key) : Option Value → ExtTreeMap Key Value
  | some value => map.insert key value
  | none => map.erase key

variable [LawfulEqOrd Key] [DecidableEq Key]

section

variable (map : ExtTreeMap Key Value) (key : Key) (other : Key)

@[simp, grind =]
theorem getElem?_put (value : Option Value) :
    (put map key value)[other]? = if key = other then value else map[other]? := by
  cases value <;> simp [put, ExtTreeMap.getElem?_insert, ExtTreeMap.getElem?_erase]

theorem getElem?_insert (value : Value) :
    (map.insert key value)[other]? = if other = key then some value else map[other]? := by
  have inserted := getElem?_put map key other (some value)
  rwa [if_congr eq_comm rfl rfl] at inserted

theorem getElem?_erase : (map.erase key)[other]? = if other = key then none else map[other]? := by
  have erased := getElem?_put map key other none
  rwa [if_congr eq_comm rfl rfl] at erased

theorem put_getElem? : put map key map[key]? = map := by
  apply ExtTreeMap.ext_getElem?
  intro other
  grind

theorem put_put (first second : Option Value) :
    put (put map key first) key second = put map key second := by
  apply ExtTreeMap.ext_getElem?
  intro other
  grind

theorem put_comm {key other : Key} (differ : key ≠ other) (first second : Option Value) :
    put (put map key first) other second = put (put map other second) key first := by
  apply ExtTreeMap.ext_getElem?
  intro third
  grind

end

/-- Entries that are set one after the other from a function of the key. -/
theorem getElem?_foldl_put (keys : List Key) (value : Key → Option Value)
    (map : ExtTreeMap Key Value) (key : Key) :
    (keys.foldl (fun map key => put map key (value key)) map)[key]? =
      if key ∈ keys then value key else map[key]? := by
  induction keys generalizing map with
  | nil => simp
  | cons head rest ih =>
    grind

/-- The entries of another map take precedence once they are set. -/
theorem getElem?_foldl_put_toList (other map : ExtTreeMap Key Value) (key : Key) :
    (other.toList.foldl (fun map entry => put map entry.1 (some entry.2)) map)[key]? =
      other[key]?.or map[key]? := by
  have byKey : other.toList.foldl (fun map entry => put map entry.1 (some entry.2)) map =
      (other.toList.map Prod.fst).foldl (fun map key => put map key other[key]?) map := by
    rw [List.foldl_map]
    apply List.foldl_ext
    rintro map ⟨entryKey, value⟩ member
    rw [ExtTreeMap.mem_toList_iff_getElem?_eq_some.mp member]
  rw [byKey, getElem?_foldl_put, ExtTreeMap.map_fst_toList_eq_keys]
  by_cases present : key ∈ other
  · rw [if_pos (ExtTreeMap.mem_keys.mpr present)]
    obtain ⟨value, found⟩ := Option.isSome_iff_exists.mp
      (ExtTreeMap.mem_iff_isSome_getElem?.mp present)
    rw [found, Option.some_or]
  · rw [if_neg fun member => present (ExtTreeMap.mem_keys.mp member),
      ExtTreeMap.getElem?_eq_none present, Option.none_or]

theorem getElem?_foldl_put_map {keys : List Key} (distinct : keys.Nodup)
    (map : ExtTreeMap Key Value) (key : Key) :
    (keys.foldl (fun map key => put map key (map[key]?.map change)) map)[key]? =
      if key ∈ keys then map[key]?.map change else map[key]? := by
  induction keys generalizing map with
  | nil => simp
  | cons head rest ih =>
    obtain ⟨apart, distinctRest⟩ := List.nodup_cons.mp distinct
    grind

theorem foldl_put_map_keys (map : ExtTreeMap Key Value) :
    map.keys.foldl (fun map key => put map key (map[key]?.map change)) map =
      map.map fun _ => change := by
  apply ExtTreeMap.ext_getElem?
  intro key
  rw [getElem?_foldl_put_map change ExtTreeMap.nodup_keys, ExtTreeMap.getElem?_map]
  by_cases present : key ∈ map
  · simp [present]
  · simp [present]

end Put

variable [DecidableEq Key]

/-- The keys whose entry satisfies the predicate. -/
def keysWith (map : ExtTreeMap Key Value) (keep : Key × Value → Bool) : Finset Key :=
  ((map.toList.filter keep).map Prod.fst).toFinset

@[simp]
theorem mem_keysWith [LawfulEqOrd Key] {keep : Key × Value → Bool} {key : Key} :
    key ∈ keysWith map keep ↔ ∃ value, map[key]? = some value ∧ keep (key, value) = true := by
  simp [keysWith, ExtTreeMap.mem_toList_iff_getElem?_eq_some]

theorem card_keysWith (map : ExtTreeMap Key Value) (keep : Key × Value → Bool) :
    (keysWith map keep).card = (map.toList.filter keep).length := by
  have distinct : ((map.toList.filter keep).map Prod.fst).Nodup :=
    (nodup_map_fst_toList map).sublist (List.filter_sublist.map Prod.fst)
  rw [keysWith, List.toFinset_card_of_nodup distinct, List.length_map]

end FiniteMap
