import Mathlib.Data.List.Sort
import Mathlib.Logic.Basic
import Std.Data.ExtTreeMap

/-!
# Path-compressed Merkle tries

A binary trie routes keys by their bits up to a maximal depth.  A subtree with a single
entry is a leaf, entries that share all routing bits stand in a bucket, and a branch
caches its digest until something below it changes.  Every trie that insertions and
removals build is the one that a sorted list of entries determines, so its digest is
the digest that recursive partition of the list computes.
-/

namespace SparseTrie

universe u v w

/-- How keys are routed and how digests are formed. -/
structure Scheme (Key : Type u) (Value : Type v) (Digest : Type w) where
  bit : Key → ℕ → Bool
  empty : Digest
  leaf : Key → Value → Digest
  pair : Digest → Digest → Digest

inductive Trie (Key : Type u) (Value : Type v) (Digest : Type w) where
  | nil
  | leaf (key : Key) (value : Value)
  | bucket (entries : List (Key × Value))
  | branch (left right : Trie Key Value Digest) (hash : Option Digest)

variable {Key : Type u} {Value : Type v} {Digest : Type w} {entries : List (Key × Value)}

section Entries

/-! ## Sorted lists of entries -/

variable [Ord Key]

/-- Keys in increasing order. -/
def Sorted (entries : List (Key × Value)) : Prop :=
  entries.Pairwise fun first second => compare first.1 second.1 = .lt

def insertEntry (key : Key) (value : Value) : List (Key × Value) → List (Key × Value)
  | [] => [(key, value)]
  | entry :: entries =>
    match compare key entry.1 with
    | .lt => (key, value) :: entry :: entries
    | .eq => (key, value) :: entries
    | .gt => entry :: insertEntry key value entries

def removeEntry [DecidableEq Key] (key : Key) (entries : List (Key × Value)) :
    List (Key × Value) :=
  entries.filter fun entry => entry.1 ≠ key

theorem length_le_insertEntry (key : Key) (value : Value) (entries : List (Key × Value)) :
    entries.length ≤ (insertEntry key value entries).length := by
  induction entries with
  | nil => simp
  | cons entry entries ih =>
    rw [insertEntry]
    split <;> grind

theorem Sorted.filter (sorted : Sorted entries) (keep : Key × Value → Bool) :
    Sorted (entries.filter keep) :=
  List.Pairwise.filter keep sorted

variable [Std.TransOrd Key] [Std.LawfulEqOrd Key]

omit [Std.LawfulEqOrd Key] in
theorem ne_of_compare_lt {first second : Key} (before : compare first second = .lt) :
    first ≠ second := by
  rintro rfl
  simp at before

theorem mem_insertEntry {key : Key} {value : Value} (sorted : Sorted entries)
    (entry : Key × Value) :
    entry ∈ insertEntry key value entries ↔
      entry = (key, value) ∨ (entry ∈ entries ∧ entry.1 ≠ key) := by
  induction entries with
  | nil => simp [insertEntry]
  | cons head rest ih =>
    obtain ⟨headFirst, restSorted⟩ := List.pairwise_cons.mp sorted
    rw [insertEntry]
    split
    next before =>
      have notHead : ∀ other ∈ head :: rest, other.1 ≠ key := by
        intro other isOther
        rcases List.mem_cons.mp isOther with rfl | inRest
        · exact (ne_of_compare_lt before).symm
        · exact (ne_of_compare_lt (Std.TransCmp.lt_trans before (headFirst other inRest))).symm
      grind
    next same =>
      have isKey : key = head.1 := Std.LawfulEqCmp.eq_of_compare same
      have notKey : ∀ other ∈ rest, other.1 ≠ key := by
        intro other inRest
        exact isKey ▸ (ne_of_compare_lt (headFirst other inRest)).symm
      grind
    next after =>
      rw [List.mem_cons, ih restSorted]
      grind

theorem Sorted.insertEntry (sorted : Sorted entries) (key : Key) (value : Value) :
    Sorted (insertEntry key value entries) := by
  induction entries with
  | nil => exact List.pairwise_singleton _ _
  | cons head rest ih =>
    obtain ⟨headFirst, restSorted⟩ := List.pairwise_cons.mp sorted
    rw [SparseTrie.insertEntry]
    split
    next before =>
      refine List.pairwise_cons.mpr ⟨?_, sorted⟩
      intro other isOther
      rcases List.mem_cons.mp isOther with rfl | inRest
      · exact before
      · exact Std.TransCmp.lt_trans before (headFirst other inRest)
    next same =>
      have isKey : key = head.1 := Std.LawfulEqCmp.eq_of_compare same
      exact List.pairwise_cons.mpr ⟨fun other inRest => isKey ▸ headFirst other inRest, restSorted⟩
    next after =>
      refine List.pairwise_cons.mpr ⟨?_, ih restSorted⟩
      intro other isOther
      rcases (mem_insertEntry restSorted other).mp isOther with rfl | ⟨inRest, -⟩
      · exact Std.OrientedCmp.lt_of_gt after
      · exact headFirst other inRest

omit [Std.LawfulEqOrd Key] in
/-- Sorted lists with the same members are equal. -/
theorem Sorted.ext {first second : List (Key × Value)} (firstSorted : Sorted first)
    (secondSorted : Sorted second) (same : ∀ entry, entry ∈ first ↔ entry ∈ second) :
    first = second := by
  have distinct : ∀ {entries : List (Key × Value)}, Sorted entries → entries.Nodup := by
    intro entries sorted
    refine List.Pairwise.imp ?_ sorted
    intro left right before isSame
    exact ne_of_compare_lt before (congrArg Prod.fst isSame)
  have permuted : first.Perm second :=
    (List.perm_ext_iff_of_nodup (distinct firstSorted) (distinct secondSorted)).mpr same
  refine permuted.eq_of_pairwise ?_ firstSorted secondSorted
  intro left right _ _ before after
  exact absurd rfl (ne_of_compare_lt (Std.TransCmp.lt_trans before after))

theorem filter_insertEntry (sorted : Sorted entries) (keep : Key → Bool) (key : Key)
    (value : Value) :
    (insertEntry key value entries).filter (fun entry => keep entry.1) =
      if keep key then insertEntry key value (entries.filter fun entry => keep entry.1)
      else entries.filter fun entry => keep entry.1 := by
  have kept := sorted.filter fun entry => keep entry.1
  split
  next isKept =>
    refine Sorted.ext ((sorted.insertEntry key value).filter _) (kept.insertEntry key value) ?_
    intro entry
    rw [mem_insertEntry kept, List.mem_filter, mem_insertEntry sorted, List.mem_filter]
    grind
  next notKept =>
    refine Sorted.ext ((sorted.insertEntry key value).filter _) kept ?_
    intro entry
    rw [List.mem_filter, mem_insertEntry sorted, List.mem_filter]
    grind

end Entries

namespace Trie

variable (scheme : Scheme Key Value Digest) (maxDepth : ℕ) (key : Key)
  (trie : Trie Key Value Digest) (value : Value) (room : ℕ) (depth : ℕ) (keep : Key → Bool)

/-! ## The operations -/

section Operations

variable [Ord Key] [DecidableEq Key]

/-- Two leaves of different keys: branches down to the first bit that separates them. -/
def splitLeaf : ℕ → ℕ → Key × Value → Key × Value → Trie Key Value Digest
  | 0, _, old, new => .bucket (insertEntry new.1 new.2 [old])
  | room + 1, depth, old, new =>
    match scheme.bit old.1 depth, scheme.bit new.1 depth with
    | false, false => .branch (splitLeaf room (depth + 1) old new) .nil none
    | true, true => .branch .nil (splitLeaf room (depth + 1) old new) none
    | false, true => .branch (.leaf old.1 old.2) (.leaf new.1 new.2) none
    | true, false => .branch (.leaf new.1 new.2) (.leaf old.1 old.2) none

def insert (maxDepth : ℕ) (key : Key) (value : Value) :
    ℕ → Trie Key Value Digest → Trie Key Value Digest
  | _, .nil => .leaf key value
  | depth, .leaf oldKey oldValue =>
    if oldKey = key then .leaf key value
    else splitLeaf scheme (maxDepth - depth) depth (oldKey, oldValue) (key, value)
  | _, .bucket entries => .bucket (insertEntry key value entries)
  | depth, .branch left right _ =>
    if scheme.bit key depth then
      .branch left (insert maxDepth key value (depth + 1) right) none
    else .branch (insert maxDepth key value (depth + 1) left) right none

/-- A branch whose only entry is a leaf is that leaf. -/
def join : Trie Key Value Digest → Trie Key Value Digest → Trie Key Value Digest
  | .nil, .nil => .nil
  | .nil, .leaf key value => .leaf key value
  | .leaf key value, .nil => .leaf key value
  | left, right => .branch left right none

def ofBucket : List (Key × Value) → Trie Key Value Digest
  | [(key, value)] => .leaf key value
  | entries => .bucket entries

def remove (key : Key) : ℕ → Trie Key Value Digest → Trie Key Value Digest
  | _, .nil => .nil
  | _, .leaf oldKey value => if oldKey = key then .nil else .leaf oldKey value
  | _, .bucket entries => ofBucket (removeEntry key entries)
  | depth, .branch left right _ =>
    if scheme.bit key depth then join left (remove key (depth + 1) right)
    else join (remove key (depth + 1) left) right

end Operations

def hashOf : Trie Key Value Digest → Digest × Trie Key Value Digest
  | .nil => (scheme.empty, .nil)
  | .leaf key value => (scheme.leaf key value, .leaf key value)
  | .bucket [] => (scheme.empty, .bucket [])
  | .bucket (entry :: entries) => (scheme.leaf entry.1 entry.2, .bucket (entry :: entries))
  | .branch left right (some hash) => (hash, .branch left right (some hash))
  | .branch left right none =>
    let (leftHash, left) := hashOf left
    let (rightHash, right) := hashOf right
    let hash := scheme.pair leftHash rightHash
    (hash, .branch left right (some hash))

/-! ## Caches -/

/-- The digest without use of the caches. -/
def digest : Trie Key Value Digest → Digest
  | .nil => scheme.empty
  | .leaf key value => scheme.leaf key value
  | .bucket [] => scheme.empty
  | .bucket (entry :: _) => scheme.leaf entry.1 entry.2
  | .branch left right _ => scheme.pair (digest left) (digest right)

def Cached : Trie Key Value Digest → Prop
  | .branch left right hash =>
    left.Cached ∧ right.Cached ∧
      ∀ cached ∈ hash, cached = scheme.pair (digest scheme left) (digest scheme right)
  | _ => True

/-- The trie without its caches. -/
def strip : Trie Key Value Digest → Trie Key Value Digest
  | .branch left right _ => .branch left.strip right.strip none
  | other => other

theorem digest_strip : digest scheme trie.strip = digest scheme trie := by
  induction trie with
  | branch left right hash leftSame rightSame => simp only [strip, digest, leftSame, rightSame]
  | _ => rfl

theorem hashOf_spec (cached : trie.Cached scheme) : (hashOf scheme trie).1 = digest scheme trie ∧
      (hashOf scheme trie).2.strip = trie.strip ∧ (hashOf scheme trie).2.Cached scheme := by
  induction trie with
  | nil => exact ⟨rfl, rfl, trivial⟩
  | leaf key value => exact ⟨rfl, rfl, trivial⟩
  | bucket entries => cases entries <;> exact ⟨rfl, rfl, trivial⟩
  | branch left right hash leftSpec rightSpec =>
    cases hash with
    | some hash => exact ⟨cached.2.2 hash rfl, rfl, cached⟩
    | none =>
      obtain ⟨leftDigest, leftStrip, leftCached⟩ := leftSpec cached.1
      obtain ⟨rightDigest, rightStrip, rightCached⟩ := rightSpec cached.2.1
      have sameLeft : digest scheme (hashOf scheme left).2 = digest scheme left := by
        rw [← digest_strip, leftStrip, digest_strip]
      have sameRight : digest scheme (hashOf scheme right).2 = digest scheme right := by
        rw [← digest_strip, rightStrip, digest_strip]
      refine ⟨?_, ?_, leftCached, rightCached, ?_⟩
      · simp only [hashOf, digest, leftDigest, rightDigest]
      · simp only [hashOf, strip, leftStrip, rightStrip]
      · intro stored isStored
        have isHash : scheme.pair (hashOf scheme left).1 (hashOf scheme right).1 = stored := by
          simpa using isStored
        rw [← isHash, leftDigest, rightDigest, sameLeft, sameRight]

theorem join_strip (left right : Trie Key Value Digest) :
    (join left right).strip = join left.strip right.strip := by
  cases left <;> cases right <;> rfl

theorem join_cached {left right : Trie Key Value Digest} (leftCached : left.Cached scheme)
    (rightCached : right.Cached scheme) : (join left right).Cached scheme := by
  cases left <;> cases right <;> simp_all [join, Cached]

theorem ofBucket_strip (entries : List (Key × Value)) :
    (ofBucket entries : Trie Key Value Digest).strip = ofBucket entries := by
  unfold ofBucket
  split <;> rfl

theorem ofBucket_cached (entries : List (Key × Value)) :
    (ofBucket entries : Trie Key Value Digest).Cached scheme := by
  unfold ofBucket
  split <;> trivial

theorem remove_strip [DecidableEq Key] :
    (remove scheme key depth trie).strip = remove scheme key depth trie.strip := by
  induction trie generalizing depth with
  | nil => rfl
  | leaf oldKey oldValue =>
    simp only [remove, strip]
    split <;> rfl
  | bucket entries => exact ofBucket_strip _
  | branch left right hash leftSame rightSame =>
    simp only [remove, strip]
    split
    · rw [join_strip, rightSame]
    · rw [join_strip, leftSame]

theorem remove_cached [DecidableEq Key] (cached : trie.Cached scheme) (depth : ℕ) :
    (remove scheme key depth trie).Cached scheme := by
  induction trie generalizing depth with
  | nil => trivial
  | leaf oldKey oldValue =>
    rw [remove]
    split <;> trivial
  | bucket entries => exact ofBucket_cached scheme _
  | branch left right hash leftCached rightCached =>
    rw [remove]
    split
    · exact join_cached scheme cached.1 (rightCached cached.2.1 _)
    · exact join_cached scheme (leftCached cached.1 _) cached.2.1

section Operations

variable [Ord Key]

theorem splitLeaf_strip (old new : Key × Value) :
    (splitLeaf scheme room depth old new).strip = splitLeaf scheme room depth old new := by
  induction room generalizing depth with
  | zero => rfl
  | succ room ih =>
    rw [splitLeaf]
    split <;> simp [strip, ih]

theorem splitLeaf_cached (old new : Key × Value) :
    (splitLeaf scheme room depth old new).Cached scheme := by
  induction room generalizing depth with
  | zero => trivial
  | succ room ih =>
    rw [splitLeaf]
    split <;> simp [Cached, ih]

variable [DecidableEq Key]

theorem insert_strip : (insert scheme maxDepth key value depth trie).strip =
      insert scheme maxDepth key value depth trie.strip := by
  induction trie generalizing depth with
  | nil => rfl
  | leaf oldKey oldValue =>
    simp only [insert, strip]
    split
    · rfl
    · exact splitLeaf_strip ..
  | bucket entries => rfl
  | branch left right hash leftSame rightSame =>
    simp only [insert, strip]
    split <;> simp only [strip, leftSame, rightSame]

theorem insert_cached (cached : trie.Cached scheme) (depth : ℕ) :
    (insert scheme maxDepth key value depth trie).Cached scheme := by
  induction trie generalizing depth with
  | nil => trivial
  | leaf oldKey oldValue =>
    rw [insert]
    split
    · trivial
    · exact splitLeaf_cached ..
  | bucket entries => trivial
  | branch left right hash leftCached rightCached =>
    rw [insert]
    split
    · exact ⟨cached.1, rightCached cached.2.1 _, by simp⟩
    · exact ⟨leftCached cached.1 _, cached.2.1, by simp⟩

end Operations

/-! ## The trie of a sorted list -/

def canon : ℕ → ℕ → List (Key × Value) → Trie Key Value Digest
  | _, _, [] => .nil
  | _, _, [entry] => .leaf entry.1 entry.2
  | 0, _, first :: second :: rest => .bucket (first :: second :: rest)
  | room + 1, depth, first :: second :: rest =>
    let entries := first :: second :: rest
    .branch (canon room (depth + 1) (entries.filter fun entry => !scheme.bit entry.1 depth))
      (canon room (depth + 1) (entries.filter fun entry => scheme.bit entry.1 depth)) none

/-- The digest by recursive partition of a sorted list. -/
def buildRoot : ℕ → ℕ → List (Key × Value) → Digest
  | _, _, [] => scheme.empty
  | _, _, [entry] => scheme.leaf entry.1 entry.2
  | 0, _, first :: _ :: _ => scheme.leaf first.1 first.2
  | room + 1, depth, first :: second :: rest =>
    let entries := first :: second :: rest
    scheme.pair
      (buildRoot room (depth + 1) (entries.filter fun entry => !scheme.bit entry.1 depth))
      (buildRoot room (depth + 1) (entries.filter fun entry => scheme.bit entry.1 depth))

theorem canon_nil : canon scheme room depth [] = .nil := by
  cases room <;> rfl

theorem canon_singleton (entry : Key × Value) :
    canon scheme room depth [entry] = .leaf entry.1 entry.2 := by
  cases room <;> rfl

theorem canon_zero (many : 2 ≤ entries.length) (depth : ℕ) :
    canon scheme 0 depth entries = .bucket entries := by
  match entries, many with
  | _ :: _ :: _, _ => rfl

theorem canon_succ (many : 2 ≤ entries.length) (room depth : ℕ) :
    canon scheme (room + 1) depth entries =
      .branch
        (canon scheme room (depth + 1) (entries.filter fun entry => !scheme.bit entry.1 depth))
        (canon scheme room (depth + 1) (entries.filter fun entry => scheme.bit entry.1 depth))
        none := by
  match entries, many with
  | _ :: _ :: _, _ => rfl

theorem digest_canon (entries : List (Key × Value)) :
    digest scheme (canon scheme room depth entries) = buildRoot scheme room depth entries := by
  induction room generalizing depth entries with
  | zero =>
    match entries with
    | [] => rfl
    | [_] => rfl
    | _ :: _ :: _ => rfl
  | succ room ih =>
    match entries with
    | [] => rfl
    | [_] => rfl
    | first :: second :: rest => simp only [canon, buildRoot, digest, ih]

theorem length_filter_not_add (keep : Key × Value → Bool) (entries : List (Key × Value)) :
    (entries.filter fun entry => !keep entry).length + (entries.filter keep).length =
      entries.length := by
  induction entries with
  | nil => rfl
  | cons entry entries ih =>
    cases kept : keep entry <;> simp [kept] <;> omega

theorem join_canon (entries : List (Key × Value)) :
    join (canon scheme room (depth + 1) (entries.filter fun entry => !scheme.bit entry.1 depth))
        (canon scheme room (depth + 1) (entries.filter fun entry => scheme.bit entry.1 depth)) =
      canon scheme (room + 1) depth entries := by
  match entries with
  | [] => simp [canon_nil, join]
  | [entry] =>
    cases goesRight : scheme.bit entry.1 depth <;>
      simp [goesRight, canon_nil, canon_singleton, join]
  | first :: second :: rest =>
    have total := length_filter_not_add (fun entry => scheme.bit entry.1 depth)
      (first :: second :: rest)
    rw [canon_succ scheme (by simp)]
    generalize (first :: second :: rest).filter (fun entry => !scheme.bit entry.1 depth) = lefts
      at total ⊢
    generalize (first :: second :: rest).filter (fun entry => scheme.bit entry.1 depth) = rights
      at total ⊢
    -- a lone leaf beside an empty subtree would need a list of one entry
    match lefts, rights, total with
    | [], [], impossible => simp at impossible
    | [], [_], impossible => simp at impossible
    | [_], [], impossible => simp at impossible
    | [], _ :: _ :: _, _ => cases room <;> rfl
    | _ :: _ :: _, [], _ => cases room <;> rfl
    | [_], [_], _ => cases room <;> rfl
    | [_], _ :: _ :: _, _ => cases room <;> rfl
    | _ :: _ :: _, [_], _ => cases room <;> rfl
    | _ :: _ :: _, _ :: _ :: _, _ => cases room <;> rfl

theorem ofBucket_eq_canon (some_ : entries ≠ []) (depth : ℕ) :
    ofBucket entries = canon scheme 0 depth entries := by
  match entries, some_ with
  | [_], _ => rfl
  | _ :: _ :: _, _ => rfl

section Canonical

variable [DecidableEq Key]

theorem removeEntry_filter (entries : List (Key × Value)) :
    removeEntry key (entries.filter fun entry => keep entry.1) =
      (removeEntry key entries).filter fun entry => keep entry.1 := by
  rw [removeEntry, removeEntry, List.filter_filter, List.filter_filter]
  exact List.filter_congr fun entry _ => Bool.and_comm _ _

theorem removeEntry_filter_of_not {key : Key} (notKept : keep key = false)
    (entries : List (Key × Value)) : (removeEntry key entries).filter (fun entry => keep entry.1) =
      entries.filter fun entry => keep entry.1 := by
  rw [removeEntry, List.filter_filter]
  refine List.filter_congr fun entry _ => ?_
  by_cases same : entry.1 = key
  · simp [same, notKept]
  · simp [same]

theorem removeEntry_ne_nil {key : Key} (distinct : (entries.map Prod.fst).Nodup)
    (many : 2 ≤ entries.length) : removeEntry key entries ≠ [] := by
  match entries, many with
  | first :: second :: rest, _ =>
    intro isNil
    rw [removeEntry, List.filter_eq_nil_iff] at isNil
    have firstRemoved : first.1 = key := by simpa using isNil first (by simp)
    have secondRemoved : second.1 = key := by simpa using isNil second (by simp)
    have differ : first.1 ≠ second.1 := by
      have apart := (List.nodup_cons.mp distinct).1
      simp only [List.map_cons, List.mem_cons, not_or] at apart
      exact apart.1
    exact differ (firstRemoved.trans secondRemoved.symm)

theorem remove_canon (entries : List (Key × Value)) (distinct : (entries.map Prod.fst).Nodup) :
    remove scheme key depth (canon scheme room depth entries) =
      canon scheme room depth (removeEntry key entries) := by
  induction room generalizing depth entries with
  | zero =>
    match entries with
    | [] => rfl
    | [entry] =>
      by_cases same : entry.1 = key <;> simp [canon_singleton, remove, removeEntry, same, canon]
    | first :: second :: rest =>
      exact ofBucket_eq_canon scheme (removeEntry_ne_nil distinct (by simp)) depth
  | succ room ih =>
    match entries with
    | [] => rfl
    | [entry] =>
      by_cases same : entry.1 = key <;> simp [canon_singleton, remove, removeEntry, same, canon]
    | first :: second :: rest =>
      have distinctHalf : ∀ keep : Key × Value → Bool,
          (((first :: second :: rest).filter keep).map Prod.fst).Nodup :=
        fun keep => distinct.sublist (List.filter_sublist.map Prod.fst)
      rw [canon_succ scheme (by simp), remove, ← join_canon]
      split
      next goesRight =>
        rw [ih _ _ (distinctHalf _), removeEntry_filter key (fun key => scheme.bit key depth),
          removeEntry_filter_of_not (fun key => !scheme.bit key depth) (by simp [goesRight])]
      next goesLeft =>
        rw [ih _ _ (distinctHalf _), removeEntry_filter key (fun key => !scheme.bit key depth),
          removeEntry_filter_of_not (fun key => scheme.bit key depth) (by simpa using goesLeft)]

variable [Ord Key] [Std.TransOrd Key] [Std.LawfulEqOrd Key]

omit [DecidableEq Key] [Std.TransOrd Key] in
theorem two_le_insertEntry {old new : Key × Value} (differ : old.1 ≠ new.1) :
    2 ≤ (insertEntry new.1 new.2 [old]).length := by
  rw [insertEntry]
  split
  next => simp
  next same => exact absurd (Std.LawfulEqCmp.eq_of_compare same).symm differ
  next => simp [insertEntry]

omit [DecidableEq Key] in
theorem splitLeaf_eq_canon {old new : Key × Value} (differ : old.1 ≠ new.1) (room depth : ℕ) :
    splitLeaf scheme room depth old new =
      canon scheme room depth (insertEntry new.1 new.2 [old]) := by
  have many := two_le_insertEntry differ
  have halves : ∀ keep : Key → Bool, _ := fun keep =>
    filter_insertEntry (List.pairwise_singleton _ old) keep new.1 new.2
  induction room generalizing depth with
  | zero => rw [canon_zero scheme many, splitLeaf]
  | succ room ih =>
    rw [canon_succ scheme many, halves fun key => scheme.bit key depth,
      halves fun key => !scheme.bit key depth, splitLeaf]
    cases oldRight : scheme.bit old.1 depth <;> cases newRight : scheme.bit new.1 depth <;>
      simp [oldRight, newRight, ih, insertEntry, canon_nil, canon_singleton]

theorem insert_leaf (total : room + depth = maxDepth) (entry : Key × Value) :
    insert scheme maxDepth key value depth (.leaf entry.1 entry.2) =
      canon scheme room depth (insertEntry key value [entry]) := by
  rw [insert, ← total, Nat.add_sub_cancel]
  split
  next same =>
    have replaced : insertEntry key value [entry] = [(key, value)] := by
      simp [insertEntry, same]
    rw [replaced, canon_singleton]
  next differ => exact splitLeaf_eq_canon scheme differ room depth

theorem insert_canon (total : room + depth = maxDepth) (sorted : Sorted entries) :
    insert scheme maxDepth key value depth (canon scheme room depth entries) =
      canon scheme room depth (insertEntry key value entries) := by
  induction room generalizing depth entries with
  | zero =>
    match entries with
    | [] => rfl
    | [entry] => exact insert_leaf scheme maxDepth key value 0 depth total entry
    | first :: second :: rest =>
      have many : 2 ≤ (insertEntry key value (first :: second :: rest)).length :=
        le_trans (by simp) (length_le_insertEntry key value (first :: second :: rest))
      rw [canon_zero scheme (by simp), canon_zero scheme many, insert]
  | succ room ih =>
    match entries with
    | [] => rfl
    | [entry] => exact insert_leaf scheme maxDepth key value (room + 1) depth total entry
    | first :: second :: rest =>
      have many : 2 ≤ (insertEntry key value (first :: second :: rest)).length :=
        le_trans (by simp) (length_le_insertEntry key value (first :: second :: rest))
      have deeper : room + (depth + 1) = maxDepth := by omega
      rw [canon_succ scheme (by simp), canon_succ scheme many, insert,
        filter_insertEntry sorted (fun key => scheme.bit key depth),
        filter_insertEntry sorted (fun key => !scheme.bit key depth)]
      cases goesRight : scheme.bit key depth with
      | true => simp [ih _ deeper (sorted.filter _)]
      | false => simp [ih _ deeper (sorted.filter _)]

end Canonical

end Trie

end SparseTrie
