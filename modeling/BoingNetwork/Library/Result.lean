import Mathlib.Logic.Basic

/-!
# Sequencing of fallible computations

Simp rules for `Except` in do blocks: a failed step ends the computation with its
error, and a successful sequence splits into its steps.
-/

namespace Except

universe u v

variable {Error : Type u} {Value Next : Type v} {computation : Except Error Value}

@[simp]
theorem error_bind (error : Error) (next : Value → Except Error Next) :
    (Except.error error >>= next) = Except.error error := rfl

@[simp]
theorem ok_bind (value : Value) (next : Value → Except Error Next) :
    (Except.ok value >>= next) = next value := rfl

theorem bind_eq_ok {next : Value → Except Error Next} {result : Next} :
    (computation >>= next) = Except.ok result ↔
      ∃ value, computation = Except.ok value ∧ next value = Except.ok result := by
  cases computation with
  | error error => simp
  | ok value => simp

theorem mapError_eq_ok {Other : Type u} {change : Error → Other} {value : Value} :
    computation.mapError change = Except.ok value ↔ computation = Except.ok value := by
  cases computation with
  | error error => exact ⟨nofun, nofun⟩
  | ok other =>
    constructor
    · rintro ⟨⟩
      rfl
    · rintro ⟨⟩
      rfl

section Loops

variable {Item : Type v} {call : Item → Except Error Value} {items : List Item}
  {results : List Value}

theorem exists_of_mapM (succeeded : items.mapM call = Except.ok results) {item : Item}
    (member : item ∈ items) : ∃ result, call item = Except.ok result := by
  induction items generalizing results with
  | nil => cases member
  | cons first items ih =>
    rw [List.mapM_cons, bind_eq_ok] at succeeded
    obtain ⟨result, isFirst, rest⟩ := succeeded
    obtain ⟨others, isRest, -⟩ := bind_eq_ok.mp rest
    rcases List.mem_cons.mp member with rfl | later
    · exact ⟨result, isFirst⟩
    · exact ih isRest later

theorem mem_of_mapM (succeeded : items.mapM call = Except.ok results) {result : Value} :
    result ∈ results ↔ ∃ item ∈ items, call item = Except.ok result := by
  induction items generalizing results with
  | nil =>
    cases succeeded
    simp
  | cons first items ih =>
    rw [List.mapM_cons, bind_eq_ok] at succeeded
    obtain ⟨found, isFirst, rest⟩ := succeeded
    obtain ⟨others, isRest, isResults⟩ := bind_eq_ok.mp rest
    cases isResults
    simp only [List.mem_cons, exists_eq_or_imp, ih isRest, isFirst]
    rw [Except.ok.injEq, eq_comm]

theorem eq_map_of_mapM {known : Item → Value}
    (isKnown : ∀ item ∈ items, ∀ result, call item = Except.ok result → result = known item)
    (succeeded : items.mapM call = Except.ok results) : results = items.map known := by
  induction items generalizing results with
  | nil =>
    cases succeeded
    rfl
  | cons first items ih =>
    rw [List.mapM_cons, bind_eq_ok] at succeeded
    obtain ⟨found, isFirst, rest⟩ := succeeded
    obtain ⟨others, isRest, isResults⟩ := bind_eq_ok.mp rest
    cases isResults
    rw [List.map_cons, isKnown first List.mem_cons_self found isFirst,
      ih (fun item member => isKnown item (List.mem_cons_of_mem _ member)) isRest]

end Loops

end Except
