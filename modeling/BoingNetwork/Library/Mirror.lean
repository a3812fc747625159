import Mathlib.Data.Set.Function

/-!
# Mirrors with stale entries

Owners have entries, and a table holds the entry of each owner under the owner's key,
except for owners that are stale.  Refreshing an owner writes its entry to the table.
When the keys of the owners are apart, a table that was refreshed for every stale owner
is the only one: it does not matter what it was before or in which order it was written.
-/

universe u v w x

variable {Owner : Type u} {Key : Type v} {Value : Type w}

/-- The table holds the entries of the owners that are not stale, and nothing else. -/
structure Mirrors (key : Owner → Key) (owners : Set Owner) (entry : Owner → Option Value)
    (stale : Owner → Prop) (table : Key → Option Value) : Prop where
  fresh : ∀ owner ∈ owners, ¬ stale owner → table (key owner) = entry owner
  outside : ∀ place, (∀ owner ∈ owners, key owner ≠ place) → table place = none

namespace Mirrors

variable {key : Owner → Key} {owners : Set Owner} {entry : Owner → Option Value}
  {stale more : Owner → Prop} {table : Key → Option Value}

theorem empty : Mirrors key owners entry (fun owner => entry owner ≠ none) fun _ => none where
  fresh _ _ fresh := (not_not.mp fresh).symm
  outside _ _ := rfl

theorem change (mirrors : Mirrors key owners entry stale table) {changed : Owner → Option Value}
    (kept : ∀ owner ∈ owners, ¬ more owner → ¬ stale owner ∧ changed owner = entry owner) :
    Mirrors key owners changed more table where
  fresh owner isOwner fresh := by
    obtain ⟨wasFresh, same⟩ := kept owner isOwner fresh
    rw [same, mirrors.fresh owner isOwner wasFresh]
  outside := mirrors.outside

theorem weaken (mirrors : Mirrors key owners entry stale table)
    (weaker : ∀ owner ∈ owners, stale owner → more owner) : Mirrors key owners entry more table :=
  mirrors.change fun owner isOwner fresh =>
    ⟨fun isStale => fresh (weaker owner isOwner isStale), rfl⟩

theorem refresh [DecidableEq Key] (apart : Set.InjOn key owners)
    (mirrors : Mirrors key owners entry stale table) {owner : Owner} (isOwner : owner ∈ owners) :
    Mirrors key owners entry (fun other => stale other ∧ other ≠ owner)
      (Function.update table (key owner) (entry owner)) where
  fresh other isOther fresh := by
    by_cases same : other = owner
    · rw [same, Function.update_self]
    · have differ : key other ≠ key owner := fun clash => same (apart isOther isOwner clash)
      rw [Function.update_of_ne differ]
      exact mirrors.fresh other isOther fun isStale => fresh ⟨isStale, same⟩
  outside place unused := by
    rw [Function.update_of_ne (unused owner isOwner).symm]
    exact mirrors.outside place unused

theorem foldl {State : Type x} {Item : Type*} (look : State → Key → Option Value)
    (Good : State → Prop) (step : State → Item → State) (ownerOf : Item → Owner)
    (items : List Item)
    (refreshes : ∀ state, ∀ item ∈ items, ∀ rest : Owner → Prop,
      (∀ owner, rest owner → stale owner) → Good state →
        Mirrors key owners entry rest (look state) → Good (step state item) ∧
          Mirrors key owners entry (fun other => rest other ∧ other ≠ ownerOf item)
            (look (step state item)))
    {start : State} (good : Good start) (mirrors : Mirrors key owners entry stale (look start)) :
    Good (items.foldl step start) ∧
      Mirrors key owners entry (fun owner => stale owner ∧ ∀ item ∈ items, owner ≠ ownerOf item)
        (look (items.foldl step start)) := by
  induction items generalizing start stale with
  | nil => exact ⟨good, mirrors.weaken (by simp)⟩
  | cons item rest ih =>
    obtain ⟨goodNext, next⟩ := refreshes start item List.mem_cons_self stale
      (fun _ isStale => isStale) good mirrors
    obtain ⟨goodLast, last⟩ := ih
      (fun state other inRest remaining fewer => refreshes state other
        (List.mem_cons_of_mem _ inRest) remaining fun owner isStale => (fewer owner isStale).1)
      goodNext next
    refine ⟨goodLast, last.weaken ?_⟩
    rintro owner - ⟨⟨isStale, notItem⟩, notRest⟩
    exact ⟨isStale, List.forall_mem_cons.mpr ⟨notItem, notRest⟩⟩

theorem unique {other : Key → Option Value} (first : Mirrors key owners entry stale table)
    (second : Mirrors key owners entry stale other) (fresh : ∀ owner ∈ owners, ¬ stale owner) :
    table = other := by
  funext place
  by_cases used : ∃ owner ∈ owners, key owner = place
  · obtain ⟨owner, isOwner, rfl⟩ := used
    rw [first.fresh owner isOwner (fresh owner isOwner),
      second.fresh owner isOwner (fresh owner isOwner)]
  · have unused : ∀ owner ∈ owners, key owner ≠ place := by
      intro owner isOwner isPlace
      exact used ⟨owner, isOwner, isPlace⟩
    rw [first.outside place unused, second.outside place unused]

end Mirrors
