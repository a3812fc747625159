import Mathlib.Data.Finset.Card
import Mathlib.Data.Finset.Union
import Mathlib.Logic.Function.Iterate

/-!
# Drawing different values

A loop draws values from a sequence and keeps the new ones, until it has enough of them or
the sequence stops it.  What it keeps is the set of the values drawn so far.
-/

namespace DistinctDraws

universe u v

variable {State : Type u} {Value : Type v} [DecidableEq Value]

section Definitions

variable (next : State → State) (value : State → Value) (stop : State → Bool) (enough : ℕ)

/-- The loop, with fuel; a stop is seen after the draw. -/
def fill : ℕ → State → List Value → Option (List Value)
  | 0, _, _ => none
  | fuel + 1, state, drawn =>
    if drawn.length < enough then
      let more := if value (next state) ∈ drawn then drawn else drawn ++ [value (next state)]
      if stop (next state) then some more else fill fuel (next state) more
    else some drawn

/-- What is there at first, and the values of a number of draws. -/
def reached (initial : Finset Value) (state : State) (count : ℕ) : Finset Value :=
  initial ∪ (Finset.range count).image fun index => value (next^[index + 1] state)

end Definitions

variable {next : State → State} {value : State → Value} {stop : State → Bool}
  {enough fuel count : ℕ} {state : State} {drawn result : List Value} (initial : Finset Value)

theorem reached_zero : reached next value initial state 0 = initial := by
  simp [reached]

theorem reached_succ (count : ℕ) : reached next value initial state (count + 1) =
      reached next value (insert (value (next state)) initial) (next state) count := by
  ext found
  simp only [reached, Finset.mem_union, Finset.mem_image, Finset.mem_range, Finset.mem_insert,
    Nat.exists_lt_succ_left, Function.iterate_succ_apply, Function.iterate_zero_apply, eq_comm]
  tauto

/-- The list after a draw. -/
theorem nodup_more (distinct : drawn.Nodup) (new : Value) :
    (if new ∈ drawn then drawn else drawn ++ [new]).Nodup ∧
      (if new ∈ drawn then drawn else drawn ++ [new]).toFinset = insert new drawn.toFinset ∧
      (if new ∈ drawn then drawn else drawn ++ [new]).length ≤ drawn.length + 1 := by
  split
  next known =>
    refine ⟨distinct, ?_, Nat.le_succ _⟩
    rw [Finset.insert_eq_of_mem (List.mem_toFinset.mpr known)]
  next unknown =>
    refine ⟨?_, ?_, ?_⟩
    · exact List.nodup_append'.mpr ⟨distinct, List.nodup_singleton _,
        List.disjoint_singleton.mpr unknown⟩
    · rw [List.toFinset_append, Finset.union_comm]
      rfl
    · rw [List.length_append, List.length_singleton]

/-- What the loop returns. -/
structure Filled (next : State → State) (value : State → Value) (stop : State → Bool) (enough : ℕ)
    (state : State) (drawn result : List Value) (count : ℕ) : Prop where
  nodup : result.Nodup
  reached : result.toFinset = reached next value drawn.toFinset state count
  bound : result.length ≤ enough
  ended : result.length = enough ∨ 0 < count ∧ stop (next^[count] state) = true

theorem exists_filled (distinct : drawn.Nodup) (few : drawn.length ≤ enough)
    (filled : fill next value stop enough fuel state drawn = some result) :
    ∃ count, Filled next value stop enough state drawn result count := by
  induction fuel generalizing state drawn with
  | zero => cases filled
  | succ fuel ih =>
    rw [fill] at filled
    split at filled
    next short =>
      obtain ⟨stillDistinct, isMore, oneMore⟩ := nodup_more distinct (value (next state))
      dsimp only at filled
      split at filled
      next stops =>
        cases filled
        refine ⟨1, stillDistinct, ?_, oneMore.trans short, .inr ⟨Nat.one_pos, stops⟩⟩
        rw [isMore, reached_succ, reached_zero]
      next runs =>
        obtain ⟨count, nodup, isReached, bound, ended⟩ :=
          ih stillDistinct (oneMore.trans short) filled
        refine ⟨count + 1, nodup, ?_, bound, ended.imp_right fun ⟨_, stops⟩ =>
          ⟨Nat.succ_pos _, stops⟩⟩
        rw [isReached, isMore, reached_succ]
    next full =>
      cases filled
      exact ⟨0, distinct, (reached_zero _).symm, few, .inl (by omega)⟩

theorem fill_mono {larger : ℕ} (more : fuel ≤ larger)
    (filled : fill next value stop enough fuel state drawn = some result) :
    fill next value stop enough larger state drawn = some result := by
  induction fuel generalizing state drawn larger with
  | zero => cases filled
  | succ fuel ih =>
    obtain ⟨rest, rfl⟩ := Nat.exists_eq_add_of_le' (Nat.one_le_of_lt more)
    rw [fill] at filled ⊢
    split
    next short =>
      rw [if_pos short] at filled
      dsimp only at filled ⊢
      split
      next stops => rwa [if_pos stops] at filled
      next runs =>
        rw [if_neg runs] at filled
        exact ih (Nat.le_of_succ_le_succ more) filled
    next full => rwa [if_neg full] at filled

theorem fill_eq_self (full : enough ≤ drawn.length) :
    fill next value stop enough (fuel + 1) state drawn = some drawn := by
  rw [fill, if_neg (Nat.not_lt.mpr full)]

theorem fill_isSome (positive : 0 < count) (stops : stop (next^[count] state) = true)
    (fuelled : count < fuel) : (fill next value stop enough fuel state drawn).isSome := by
  induction fuel generalizing state drawn count with
  | zero => cases fuelled
  | succ fuel ih =>
    rw [fill]
    split
    next short =>
      dsimp only
      split
      next => rfl
      next runs =>
        obtain ⟨later, rfl⟩ := Nat.exists_eq_succ_of_ne_zero positive.ne'
        refine ih ?_ stops (Nat.lt_of_succ_lt_succ fuelled)
        by_contra isFirst
        cases Nat.eq_zero_of_not_pos isFirst
        exact runs stops
    next => rfl

end DistinctDraws
