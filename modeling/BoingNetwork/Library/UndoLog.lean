import Mathlib.Data.List.Basic
import Mathlib.Data.List.Pairwise
import Mathlib.Order.Lattice
import Mathlib.Tactic.Linarith

/-!
# Undo logs with nested savepoints

A state is made of slots that are read and written one at a time.  A log holds, newest
first, values that slots had before they were written, and a savepoint is a position in
it: undoing the entries above the position leads back to the saved state.  A slot that
is in the log above every savepoint may be written again without a new entry.
-/

namespace UndoLog

universe u v w

structure Slots (State : Type u) (Slot : Type v) (Value : Slot → Type w) where
  read : State → (slot : Slot) → Value slot
  write : State → (slot : Slot) → Value slot → State
  write_read : ∀ state slot, write state slot (read state slot) = state
  write_write : ∀ state slot first second,
    write (write state slot first) slot second = write state slot second
  write_comm : ∀ state slot other first second, slot ≠ other →
    write (write state slot first) other second = write (write state other second) slot first

variable {State : Type u} {Slot : Type v} {Value : Slot → Type w} {log : List (Sigma Value)}

def since (log : List (Sigma Value)) (position : ℕ) : List (Sigma Value) :=
  log.take (log.length - position)

theorem since_cons {position : ℕ} (inLog : position ≤ log.length) (entry : Sigma Value) :
    since (entry :: log) position = entry :: since log position := by
  rw [since, List.length_cons, Nat.sub_add_comm inLog, List.take_succ_cons, since]

theorem since_length (log : List (Sigma Value)) : since log log.length = [] := by
  rw [since, Nat.sub_self, List.take_zero]

/-- The entries above an older position are those above a newer one, then those between. -/
theorem since_append {older newer : ℕ} (ordered : older ≤ newer) (inLog : newer ≤ log.length) :
    since log older = since log newer ++ since (log.drop (log.length - newer)) older := by
  have split : log.length - older = (log.length - newer) + (newer - older) := by omega
  have rest : (log.drop (log.length - newer)).length - older = newer - older := by
    rw [List.length_drop]
    omega
  rw [since, since, since, rest, split, List.take_add]

theorem mem_since_of_le {older newer : ℕ} (ordered : older ≤ newer) {entry : Sigma Value}
    (inNewer : entry ∈ since log newer) : entry ∈ since log older := by
  have shorter : log.length - newer ≤ log.length - older := Nat.sub_le_sub_left ordered _
  exact (List.take_subset_take_left log shorter) inNewer

namespace Slots

variable (slots : Slots State Slot Value) {point : ℕ × State} (state : State) {slot : Slot}

/-- Writes the logged values back, newest entry first. -/
def undo (state : State) (entries : List (Sigma Value)) : State :=
  entries.foldl (fun state entry => slots.write state entry.1 entry.2) state

@[simp]
theorem undo_nil : slots.undo state [] = state := rfl

@[simp]
theorem undo_cons (entry : Sigma Value) (entries : List (Sigma Value)) :
    slots.undo state (entry :: entries) =
      slots.undo (slots.write state entry.1 entry.2) entries := rfl

theorem undo_append (newer older : List (Sigma Value)) :
    slots.undo state (newer ++ older) = slots.undo (slots.undo state newer) older :=
  List.foldl_append

theorem undo_record (slot : Slot) (value : Value slot) (entries : List (Sigma Value)) :
    slots.undo (slots.write state slot value) (⟨slot, slots.read state slot⟩ :: entries) =
      slots.undo state entries := by
  rw [undo_cons, slots.write_write, slots.write_read]

theorem undo_write_of_mem [DecidableEq Slot] (value : Value slot) {entries : List (Sigma Value)}
    (logged : ∃ entry ∈ entries, entry.1 = slot) (state : State) :
    slots.undo (slots.write state slot value) entries = slots.undo state entries := by
  induction entries generalizing state with
  | nil =>
    obtain ⟨entry, inNil, -⟩ := logged
    cases inNil
  | cons head rest ih =>
    obtain ⟨other, previous⟩ := head
    rw [undo_cons, undo_cons]
    by_cases same : slot = other
    · subst same
      rw [slots.write_write]
    · obtain ⟨entry, inLog, isSlot⟩ := logged
      rw [slots.write_comm _ _ _ _ _ same]
      apply ih
      rcases List.mem_cons.mp inLog with isHead | inRest
      · subst isHead
        exact absurd isSlot.symm same
      · exact ⟨entry, inRest, isSlot⟩

/-- The savepoints, newest first, restore their states, and none lies above `floor`. -/
structure Consistent (log : List (Sigma Value)) (floor : ℕ) (current : State)
    (points : List (ℕ × State)) : Prop where
  floor_le : floor ≤ log.length
  le_floor : ∀ point ∈ points, point.1 ≤ floor
  restores : ∀ point ∈ points, slots.undo current (since log point.1) = point.2
  ordered : points.Pairwise fun newer older => older.1 ≤ newer.1

namespace Consistent

variable {slots} {floor : ℕ} {current : State} {points : List (ℕ × State)}

theorem le_length (consistent : slots.Consistent log floor current points)
    (isPoint : point ∈ points) : point.1 ≤ log.length :=
  (consistent.le_floor point isPoint).trans consistent.floor_le

theorem start (current : State) : slots.Consistent [] 0 current [] where
  floor_le := le_refl 0
  le_floor := by simp
  restores := by simp
  ordered := List.Pairwise.nil

variable (consistent : slots.Consistent log floor current points)

include consistent

/-- A write whose old value is logged. -/
theorem record (slot : Slot) (value : Value slot) :
    slots.Consistent (⟨slot, slots.read current slot⟩ :: log) floor
      (slots.write current slot value) points where
  floor_le := consistent.floor_le.trans (Nat.le_succ _)
  le_floor := consistent.le_floor
  restores point isPoint := by
    rw [since_cons (consistent.le_length isPoint), undo_record]
    exact consistent.restores point isPoint
  ordered := consistent.ordered

/-- An entry that is logged without a write. -/
theorem log_current (slot : Slot) :
    slots.Consistent (⟨slot, slots.read current slot⟩ :: log) floor current points := by
  have recorded := consistent.record slot (slots.read current slot)
  rwa [slots.write_read] at recorded

theorem overwrite [DecidableEq Slot] (logged : ∃ entry ∈ since log floor, entry.1 = slot)
    (value : Value slot) : slots.Consistent log floor (slots.write current slot value) points where
  floor_le := consistent.floor_le
  le_floor := consistent.le_floor
  restores point isPoint := by
    obtain ⟨entry, inLog, isSlot⟩ := logged
    have above : entry ∈ since log point.1 :=
      mem_since_of_le (consistent.le_floor point isPoint) inLog
    rw [slots.undo_write_of_mem value ⟨entry, above, isSlot⟩]
    exact consistent.restores point isPoint
  ordered := consistent.ordered

theorem overwrite_all [DecidableEq Slot] (changed : List Slot)
    (logged : ∀ slot ∈ changed, ∃ entry ∈ since log floor, entry.1 = slot)
    (value : (slot : Slot) → Value slot) : slots.Consistent log floor
      (changed.foldl (fun state slot => slots.write state slot (value slot)) current) points := by
  induction changed generalizing current with
  | nil => exact consistent
  | cons slot rest ih =>
    apply ih
    · exact consistent.overwrite (logged slot List.mem_cons_self) (value slot)
    · exact fun other inRest => logged other (List.mem_cons_of_mem _ inRest)

/-- A new savepoint at the top of the log. -/
theorem save : slots.Consistent log log.length current ((log.length, current) :: points) where
  floor_le := le_refl _
  le_floor point isPoint := by
    rcases List.mem_cons.mp isPoint with rfl | isOlder
    · exact le_refl _
    · exact consistent.le_length isOlder
  restores point isPoint := by
    rcases List.mem_cons.mp isPoint with rfl | isOlder
    · rw [since_length, undo_nil]
    · exact consistent.restores point isOlder
  ordered := List.pairwise_cons.mpr
    ⟨fun _ isOlder => consistent.le_length isOlder, consistent.ordered⟩

/-- Going back to a savepoint: the older ones stay usable. -/
theorem rollback {newer older : List (ℕ × State)} (isPoints : points = newer ++ point :: older) :
    slots.undo current (since log point.1) = point.2 ∧
      slots.Consistent (log.drop (log.length - point.1)) (min floor point.1) point.2 older := by
  subst isPoints
  have isPoint : point ∈ newer ++ point :: older := by simp
  have inLog := consistent.le_length isPoint
  have restored := consistent.restores point isPoint
  have below : ∀ other ∈ older, other.1 ≤ point.1 := by
    have tail := (List.pairwise_append.mp consistent.ordered).2.1
    exact (List.pairwise_cons.mp tail).1
  refine ⟨restored, ?_⟩
  constructor
  case floor_le =>
    rw [List.length_drop]
    omega
  case le_floor =>
    intro other isOlder
    exact le_min (consistent.le_floor other (by simp [isOlder])) (below other isOlder)
  case restores =>
    intro other isOlder
    have whole := consistent.restores other (by simp [isOlder])
    rwa [since_append (below other isOlder) inLog, undo_append, restored] at whole
  case ordered =>
    have tail := (List.pairwise_append.mp consistent.ordered).2.1
    exact (List.pairwise_cons.mp tail).2

/-- Savepoints may be given up. -/
theorem forget {kept : List (ℕ × State)} (sub : kept.Sublist points) :
    slots.Consistent log floor current kept where
  floor_le := consistent.floor_le
  le_floor point isKept := consistent.le_floor point (sub.subset isKept)
  restores point isKept := consistent.restores point (sub.subset isKept)
  ordered := consistent.ordered.sublist sub

/-- A savepoint may be used twice. -/
theorem duplicate {newer older : List (ℕ × State)} (isPoints : points = newer ++ point :: older) :
    slots.Consistent log floor current (newer ++ point :: point :: older) := by
  subst isPoints
  have same : ∀ other, other ∈ newer ++ point :: point :: older ↔
      other ∈ newer ++ point :: older := by
    intro other
    simp
  constructor
  case floor_le => exact consistent.floor_le
  case le_floor =>
    intro other isOther
    exact consistent.le_floor other ((same other).mp isOther)
  case restores =>
    intro other isOther
    exact consistent.restores other ((same other).mp isOther)
  case ordered =>
    have parts := List.pairwise_append.mp consistent.ordered
    have tail := List.pairwise_cons.mp parts.2.1
    refine List.pairwise_append.mpr ⟨parts.1, ?_, ?_⟩
    · refine List.pairwise_cons.mpr ⟨?_, parts.2.1⟩
      intro other isOther
      rcases List.mem_cons.mp isOther with rfl | isOlder
      · exact le_refl _
      · exact tail.1 other isOlder
    · intro first isNewer second isSecond
      exact parts.2.2 first isNewer second (by simpa using isSecond)

end Consistent

end Slots

end UndoLog
