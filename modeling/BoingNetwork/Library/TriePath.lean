import BoingNetwork.Library.HashCollision
import BoingNetwork.Library.SparseTrie

/-!
# Paths through Merkle tries

A path lists the siblings from the root of a trie down to an entry.  The digest of a path
is recomputed from its entry upwards, with one hash function for leaves and branches.
`Reads` says what an accepted path reads in the trie: the entry of a leaf, but also the
digests of a branch taken for an entry, or an entry taken for a pair of digests.
-/

namespace SparseTrie

universe u v w x

/-- How keys are routed, and the inputs of the hash function. -/
structure Hashing (Key : Type u) (Value : Type v) (Digest : Type w) (Input : Type x) where
  bit : Key → ℕ → Bool
  empty : Digest
  hash : Input → Digest
  leafInput : Key → Value → Input
  pairInput : Digest → Digest → Input

/-- A sibling; `goesRight` says on which side of it the path continues. -/
structure Step (Digest : Type w) where
  sibling : Digest
  goesRight : Bool

variable {Key : Type u} {Value : Type v} {Digest : Type w} {Input : Type x}
  {entry landed : Key × Value}

namespace Hashing

variable (hashing : Hashing Key Value Digest Input)

@[simps]
def scheme : Scheme Key Value Digest where
  bit := hashing.bit
  empty := hashing.empty
  leaf key value := hashing.hash (hashing.leafInput key value)
  pair left right := hashing.hash (hashing.pairInput left right)

/-- What is hashed when a path passes a sibling. -/
def combine (step : Step Digest) (current : Digest) : Input :=
  if step.goesRight then hashing.pairInput step.sibling current
  else hashing.pairInput current step.sibling

def pathDigest (entry : Key × Value) : List (Step Digest) → Digest
  | [] => hashing.hash (hashing.leafInput entry.1 entry.2)
  | step :: steps => hashing.hash (hashing.combine step (pathDigest entry steps))

/-- What is hashed at the top of a path. -/
def pathInput (entry : Key × Value) : List (Step Digest) → Input
  | [] => hashing.leafInput entry.1 entry.2
  | step :: steps => hashing.combine step (hashing.pathDigest entry steps)

/-- What is hashed along a path. -/
def pathInputs (entry : Key × Value) : List (Step Digest) → List Input
  | [] => [hashing.leafInput entry.1 entry.2]
  | step :: steps =>
    hashing.combine step (hashing.pathDigest entry steps) :: pathInputs entry steps

def trieInputs : Trie Key Value Digest → List Input
  | .nil => []
  | .leaf key value => [hashing.leafInput key value]
  | .bucket [] => []
  | .bucket (entry :: _) => [hashing.leafInput entry.1 entry.2]
  | .branch left right _ =>
    hashing.pairInput (left.digest hashing.scheme) (right.digest hashing.scheme) ::
      (trieInputs left ++ trieInputs right)

end Hashing

namespace Trie

variable (hashing : Hashing Key Value Digest Input)

/-- What a path reads, when no two inputs have the same hash. -/
def Reads : Trie Key Value Digest → List (Step Digest) → Key × Value → Prop
  | .nil, steps, entry => hashing.pathDigest entry steps = hashing.empty
  | .leaf key value, steps, entry => hashing.pathInput entry steps = hashing.leafInput key value
  | .bucket [], steps, entry => hashing.pathDigest entry steps = hashing.empty
  | .bucket (first :: _), steps, entry =>
    hashing.pathInput entry steps = hashing.leafInput first.1 first.2
  | .branch left right _, [], entry =>
    hashing.leafInput entry.1 entry.2 =
      hashing.pairInput (left.digest hashing.scheme) (right.digest hashing.scheme)
  | .branch left right _, step :: steps, entry =>
    if step.goesRight then
      step.sibling = left.digest hashing.scheme ∧ Reads right steps entry
    else step.sibling = right.digest hashing.scheme ∧ Reads left steps entry

def landing : Trie Key Value Digest → List (Step Digest) → Option (Key × Value)
  | .leaf key value, [] => some (key, value)
  | .bucket (entry :: _), [] => some entry
  | .branch left right _, step :: steps =>
    if step.goesRight then landing right steps else landing left steps
  | _, _ => none

variable {hashing} {trie : Trie Key Value Digest} {steps : List (Step Digest)}

theorem pathDigest_eq_hash (steps : List (Step Digest)) :
    hashing.pathDigest entry steps = hashing.hash (hashing.pathInput entry steps) := by
  cases steps <;> rfl

theorem pathInput_mem (steps : List (Step Digest)) :
    hashing.pathInput entry steps ∈ hashing.pathInputs entry steps := by
  cases steps <;> exact List.mem_cons_self

theorem Reads.pathDigest_eq (reads : trie.Reads hashing steps entry) :
    hashing.pathDigest entry steps = trie.digest hashing.scheme := by
  induction trie generalizing steps with
  | nil => exact reads
  | leaf key value => exact (pathDigest_eq_hash steps).trans (congrArg hashing.hash reads)
  | bucket entries =>
    cases entries with
    | nil => exact reads
    | cons first rest => exact (pathDigest_eq_hash steps).trans (congrArg hashing.hash reads)
  | branch left right hash leftReads rightReads =>
    cases steps with
    | nil => exact congrArg hashing.hash reads
    | cons step steps =>
      rw [Reads] at reads
      rw [Hashing.pathDigest, Hashing.combine, digest, Hashing.scheme_pair]
      split at reads
      next goesRight => rw [if_pos goesRight, reads.1, rightReads reads.2]
      next goesLeft => rw [if_neg goesLeft, reads.1, leftReads reads.2]

theorem reads_of_pathDigest_eq
    (pairInjective : ∀ left right otherLeft otherRight,
      hashing.pairInput left right = hashing.pairInput otherLeft otherRight →
        left = otherLeft ∧ right = otherRight)
    (collisionFree : ¬ HashCollision hashing.hash
      (hashing.trieInputs trie ++ hashing.pathInputs entry steps))
    (accepted : hashing.pathDigest entry steps = trie.digest hashing.scheme) :
    trie.Reads hashing steps entry := by
  induction trie generalizing steps with
  | nil => exact accepted
  | leaf key value =>
    exact HashCollision.eq_of_not collisionFree (by simp [pathInput_mem])
      (by simp [Hashing.trieInputs]) (pathDigest_eq_hash steps ▸ accepted)
  | bucket entries =>
    cases entries with
    | nil => exact accepted
    | cons first rest =>
      exact HashCollision.eq_of_not collisionFree (by simp [pathInput_mem])
        (by simp [Hashing.trieInputs]) (pathDigest_eq_hash steps ▸ accepted)
  | branch left right hash leftReads rightReads =>
    have sameInput := HashCollision.eq_of_not collisionFree (by simp [pathInput_mem])
      (by simp [Hashing.trieInputs]) (pathDigest_eq_hash steps ▸ accepted)
    cases steps with
    | nil => exact sameInput
    | cons step steps =>
      have below : ∀ child ∈ [left, right], ¬ HashCollision hashing.hash
          (hashing.trieInputs child ++ hashing.pathInputs entry steps) := by
        intro child isChild collision
        apply collisionFree
        apply collision.mono
        intro input
        simp only [Hashing.trieInputs, Hashing.pathInputs, List.mem_append, List.mem_cons]
        grind
      rw [Hashing.pathInput, Hashing.combine] at sameInput
      rw [Reads]
      split at sameInput
      next goesRight =>
        obtain ⟨sibling, current⟩ := pairInjective _ _ _ _ sameInput
        rw [if_pos goesRight]
        exact ⟨sibling, rightReads (below right (by simp)) current⟩
      next goesLeft =>
        obtain ⟨current, sibling⟩ := pairInjective _ _ _ _ sameInput
        rw [if_neg goesLeft]
        exact ⟨sibling, leftReads (below left (by simp)) current⟩

/-! ## Entries at the end of a path -/

def entries : Trie Key Value Digest → List (Key × Value)
  | .nil => []
  | .leaf key value => [(key, value)]
  | .bucket entries => entries
  | .branch left right _ => left.entries ++ right.entries

theorem entries_strip (trie : Trie Key Value Digest) : trie.strip.entries = trie.entries := by
  induction trie with
  | branch left right hash leftSame rightSame => rw [strip, entries, leftSame, rightSame, entries]
  | _ => rfl

theorem mem_entries_canon (scheme : Scheme Key Value Digest) (room depth : ℕ)
    (list : List (Key × Value)) (entry : Key × Value) :
    entry ∈ (canon scheme room depth list).entries ↔ entry ∈ list := by
  induction room generalizing depth list with
  | zero =>
    match list with
    | [] => rfl
    | [_] => rfl
    | _ :: _ :: _ => rfl
  | succ room ih =>
    match list with
    | [] => rfl
    | [_] => rfl
    | first :: second :: rest =>
      rw [canon_succ scheme (by simp), entries, List.mem_append, ih,
        ih, List.mem_filter, List.mem_filter]
      cases scheme.bit entry.1 depth <;> simp

theorem mem_entries_of_landing (lands : trie.landing steps = some entry) :
    entry ∈ trie.entries := by
  induction trie generalizing steps with
  | nil => cases steps <;> simp [landing] at lands
  | leaf key value => cases steps <;> simp_all [landing, entries]
  | bucket list =>
    cases list <;> cases steps <;> simp_all [landing, entries]
  | branch left right hash leftMember rightMember =>
    cases steps with
    | nil => simp [landing] at lands
    | cons step steps =>
      rw [landing] at lands
      split at lands
      next => exact List.mem_append_right _ (rightMember lands)
      next => exact List.mem_append_left _ (leftMember lands)

theorem landing_strip (trie : Trie Key Value Digest) (steps : List (Step Digest)) :
    trie.strip.landing steps = trie.landing steps := by
  induction trie generalizing steps with
  | branch left right hash leftSame rightSame =>
    cases steps with
    | nil => rfl
    | cons step steps => simp only [strip, landing, leftSame, rightSame]
  | _ => rfl

theorem Reads.eq_landing
    (leafInjective : ∀ key value otherKey otherValue,
      hashing.leafInput key value = hashing.leafInput otherKey otherValue →
        key = otherKey ∧ value = otherValue) (lands : trie.landing steps = some landed)
    (reads : trie.Reads hashing steps entry) : entry = landed := by
  induction trie generalizing steps with
  | nil => cases steps <;> simp [landing] at lands
  | leaf key value =>
    cases steps with
    | nil =>
      obtain rfl : (key, value) = landed := by simpa [landing] using lands
      obtain ⟨sameKey, sameValue⟩ := leafInjective _ _ _ _ reads
      exact Prod.ext sameKey sameValue
    | cons step steps => simp [landing] at lands
  | bucket list =>
    match list, steps with
    | first :: rest, [] =>
      obtain rfl : first = landed := by simpa [landing] using lands
      obtain ⟨sameKey, sameValue⟩ := leafInjective _ _ _ _ reads
      exact Prod.ext sameKey sameValue
    | [], [] => simp [landing] at lands
    | [], _ :: _ => simp [landing] at lands
    | _ :: _, _ :: _ => simp [landing] at lands
  | branch left right hash leftSame rightSame =>
    cases steps with
    | nil => simp [landing] at lands
    | cons step steps =>
      rw [landing] at lands
      rw [Reads] at reads
      split at lands
      next goesRight =>
        rw [if_pos goesRight] at reads
        exact rightSame lands reads.2
      next goesLeft =>
        rw [if_neg goesLeft] at reads
        exact leftSame lands reads.2

/-! ## The path of a key -/

section ProofPath

variable (scheme : Scheme Key Value Digest) (key : Key)

/-- The siblings from the root down to the first leaf or bucket on the way to `key`; the
digests that were missing are cached. -/
def proofPath (key : Key) : ℕ → Trie Key Value Digest →
    List (Step Digest) × Trie Key Value Digest
  | depth, .branch left right hash =>
    if scheme.bit key depth then
      let (sibling, left) := hashOf scheme left
      let (steps, right) := proofPath key (depth + 1) right
      (⟨sibling, true⟩ :: steps, .branch left right hash)
    else
      let (sibling, right) := hashOf scheme right
      let (steps, left) := proofPath key (depth + 1) left
      (⟨sibling, false⟩ :: steps, .branch left right hash)
  | _, trie => ([], trie)

/-- The siblings on the way to `key`, without use of the caches. -/
def path (key : Key) : ℕ → Trie Key Value Digest → List (Step Digest)
  | depth, .branch left right _ =>
    if scheme.bit key depth then
      ⟨left.digest scheme, true⟩ :: path key (depth + 1) right
    else ⟨right.digest scheme, false⟩ :: path key (depth + 1) left
  | _, _ => []

theorem proofPath_spec (trie : Trie Key Value Digest) (cached : trie.Cached scheme) (depth : ℕ) :
    (proofPath scheme key depth trie).1 = path scheme key depth trie ∧
      (proofPath scheme key depth trie).2.strip = trie.strip ∧
      (proofPath scheme key depth trie).2.Cached scheme := by
  induction trie generalizing depth with
  | branch left right hash leftSpec rightSpec =>
    obtain ⟨leftDigest, leftStrip, leftCached⟩ := hashOf_spec scheme left cached.1
    obtain ⟨rightDigest, rightStrip, rightCached⟩ := hashOf_spec scheme right cached.2.1
    obtain ⟨leftPath, leftPathStrip, leftPathCached⟩ := leftSpec cached.1 (depth + 1)
    obtain ⟨rightPath, rightPathStrip, rightPathCached⟩ := rightSpec cached.2.1 (depth + 1)
    have sameDigest : ∀ {first second : Trie Key Value Digest}, first.strip = second.strip →
        first.digest scheme = second.digest scheme := by
      intro first second sameStrip
      rw [← digest_strip, sameStrip, digest_strip]
    rw [proofPath, path]
    split
    next =>
      refine ⟨by simp only [leftDigest, rightPath], by simp only [strip, leftStrip,
        rightPathStrip], leftCached, rightPathCached, ?_⟩
      rw [sameDigest leftStrip, sameDigest rightPathStrip]
      exact cached.2.2
    next =>
      refine ⟨by simp only [rightDigest, leftPath], by simp only [strip, rightStrip,
        leftPathStrip], leftPathCached, rightCached, ?_⟩
      rw [sameDigest rightStrip, sameDigest leftPathStrip]
      exact cached.2.2
  | _ => exact ⟨rfl, rfl, cached⟩

theorem path_strip (trie : Trie Key Value Digest) (depth : ℕ) :
    path scheme key depth trie.strip = path scheme key depth trie := by
  induction trie generalizing depth with
  | branch left right hash leftSame rightSame =>
    simp only [strip, path, leftSame, rightSame, digest_strip]
  | _ => rfl

theorem landing_path_canon (room depth : ℕ) {list : List (Key × Value)}
    (present : key ∈ list.map Prod.fst) : (canon scheme room depth list).landing
        (path scheme key depth (canon scheme room depth list)) =
      (list.filter fun entry => ∀ index < room,
        scheme.bit entry.1 (depth + index) = scheme.bit key (depth + index)).head? := by
  induction room generalizing depth list with
  | zero =>
    match list with
    | [] => rfl
    | [_] => simp [canon, path, landing]
    | _ :: _ :: _ => simp [canon, path, landing]
  | succ room ih =>
    match list with
    | [] => rfl
    | [entry] =>
      obtain rfl : key = entry.1 := by simpa using present
      simp [canon, path, landing]
    | first :: second :: rest =>
      obtain ⟨member, isEntry, rfl⟩ := List.mem_map.mp present
      have splitBits : ∀ entry : Key × Value,
          (∀ index < room + 1, scheme.bit entry.1 (depth + index) =
            scheme.bit member.1 (depth + index)) ↔
          scheme.bit entry.1 depth = scheme.bit member.1 depth ∧
            ∀ index < room, scheme.bit entry.1 (depth + 1 + index) =
              scheme.bit member.1 (depth + 1 + index) := by
        intro entry
        rw [Nat.forall_lt_succ_left]
        simp only [Nat.add_zero, Nat.add_assoc, Nat.add_comm 1]
      rw [canon_succ scheme (by simp), path]
      split
      next goesRight =>
        rw [landing, if_pos rfl, ih, List.filter_filter]
        · congr 1
          apply List.filter_congr
          intro entry _
          rw [Bool.eq_iff_iff, Bool.and_eq_true, decide_eq_true_eq, decide_eq_true_eq,
            splitBits entry, goesRight, and_comm]
        · exact List.mem_map_of_mem (List.mem_filter.mpr ⟨isEntry, goesRight⟩)
      next goesLeft =>
        rw [Bool.not_eq_true] at goesLeft
        rw [landing, if_neg (by simp), ih, List.filter_filter]
        · congr 1
          apply List.filter_congr
          intro entry _
          rw [Bool.eq_iff_iff, Bool.and_eq_true, decide_eq_true_eq, decide_eq_true_eq,
            splitBits entry, goesLeft, Bool.not_eq_true', and_comm]
        · exact List.mem_map_of_mem (List.mem_filter.mpr ⟨isEntry, by simp [goesLeft]⟩)

end ProofPath

theorem reads_path (key : Key) (trie : Trie Key Value Digest) (depth : ℕ)
    (lands : trie.landing (path hashing.scheme key depth trie) = some landed) :
    trie.Reads hashing (path hashing.scheme key depth trie) landed := by
  induction trie generalizing depth with
  | nil => simp [landing] at lands
  | leaf key value =>
    obtain rfl : (key, value) = landed := by simpa [path, landing] using lands
    rfl
  | bucket list =>
    cases list with
    | nil => simp [landing] at lands
    | cons first rest =>
      obtain rfl : first = landed := by simpa [path, landing] using lands
      rfl
  | branch left right hash leftReads rightReads =>
    rw [path] at lands ⊢
    split at lands
    next goesRight =>
      rw [if_pos goesRight, Reads, if_pos rfl]
      exact ⟨rfl, rightReads _ lands⟩
    next goesLeft =>
      rw [if_neg goesLeft, Reads, if_neg (by simp)]
      exact ⟨rfl, leftReads _ lands⟩

end Trie

end SparseTrie
