import BoingNetwork.Library.Effects
import BoingNetwork.Primitives.ChunkProof
import BoingNetwork.State.SampleMarket

/-!
# What the answer to a serve challenge shows

A provider closes a challenge with a sample of the challenged chunk.  The sample brings its own
Merkle root, and the id of a blob is the hash of its bytes, so nothing ties the root to the
blob: whoever may answer at all may answer with any chunk hash.
-/

namespace BoingNetwork

open EStateM

section Answers

variable [Crypto] {challenge : BlobSampleServeChallenge} {height : ℕ}

def IsChunkHash (blobId : BlobId) (index : ℕ) (hash : Hash) : Prop :=
  ∃ data chunk, blobIdOf data = blobId ∧ (mediaBlobDataChunks data)[index]? = some chunk ∧
    chunkHashOf chunk = hash

namespace BlobSampleServeChallenge

omit [Crypto] in
/-- Open, in time, and with an index below the claimed number of chunks. -/
def Answerable (challenge : BlobSampleServeChallenge) (height : ℕ) : Prop :=
  challenge.status = .opened ∧ height ≤ challenge.deadlineHeight ∧
    challenge.chunkIndex < challenge.chunkCount

/-- An answer to the challenge that shows the hash as the root of a tree with one node. -/
def bareSample (challenge : BlobSampleServeChallenge) (hash : Hash) : MediaBlobDasSample :=
  ⟨challenge.blobId, challenge.chunkIndex, challenge.chunkCount, hash, hash, []⟩

theorem validateRespond_eq_ok_iff (challenge : BlobSampleServeChallenge) (height : ℕ)
    (sample : MediaBlobDasSample) : challenge.validateRespond height sample = .ok () ↔
      challenge.status = .opened ∧ height ≤ challenge.deadlineHeight ∧
        sample.blobId = challenge.blobId ∧ sample.chunkIndex = challenge.chunkIndex ∧
        sample.chunkCount = challenge.chunkCount ∧ sample.verify = .ok () := by
  rw [validateRespond]
  split
  next closed => simp [closed]
  next isOpen =>
    split
    next late => simp [Nat.not_le.mpr late]
    next inTime =>
      split
      next other =>
        simp only [reduceCtorEq, false_iff]
        rintro ⟨-, -, sameBlob, sameIndex, sameCount, -⟩
        rcases other with differs | differs | differs
        · exact differs sameBlob
        · exact differs sameIndex
        · exact differs sameCount
      next same =>
        simp only [not_or, not_not] at same
        simp [not_not.mp isOpen, Nat.not_lt.mp inTime, same]

theorem validateRespond_bareSample (answerable : challenge.Answerable height) (hash : Hash) :
    challenge.validateRespond height (challenge.bareSample hash) = .ok () := by
  obtain ⟨isOpen, inTime, inside⟩ := answerable
  rw [validateRespond_eq_ok_iff]
  exact ⟨isOpen, inTime, rfl, rfl, rfl, (MediaBlobDasSample.verify_eq_ok_iff _).mpr ⟨inside, rfl⟩⟩

theorem answerable_of_validateRespond {sample : MediaBlobDasSample}
    (valid : challenge.validateRespond height sample = .ok ()) : challenge.Answerable height := by
  rw [validateRespond_eq_ok_iff] at valid
  obtain ⟨isOpen, inTime, -, sameIndex, sameCount, verifies⟩ := valid
  have inside := ((MediaBlobDasSample.verify_eq_ok_iff _).mp verifies).1
  rw [sameIndex, sameCount] at inside
  exact ⟨isOpen, inTime, inside⟩

theorem validateRespond_expire_eq_ok_iff (challenge : BlobSampleServeChallenge) (height : ℕ)
    (sample : MediaBlobDasSample) :
    (challenge.expire height).validateRespond height sample = .ok () ↔
      challenge.validateRespond height sample = .ok () := by
  by_cases late : challenge.status = .opened ∧ height > challenge.deadlineHeight
  · rw [expire, if_pos late, validateRespond_eq_ok_iff, validateRespond_eq_ok_iff]
    simp [Nat.not_le.mpr late.2]
  · rw [expire, if_neg late]

end BlobSampleServeChallenge

namespace SampleServeChallengeRegistry

variable {registry : SampleServeChallengeRegistry}

def answered (registry : SampleServeChallengeRegistry) (challenge : BlobSampleServeChallenge)
    (height : ℕ) : SampleServeChallengeRegistry :=
  let expired := (registry.takeNewlyFailed height).2
  { expired with
    challenges := expired.challenges.insert challenge.marketKey
      { challenge.expire height with status := .responded } }

theorem respond_eq_ok_iff (isChallenge : registry.challenges[challenge.marketKey]? = some challenge)
    (sample : MediaBlobDasSample) (responded : BlobSampleServeChallenge)
    (after : SampleServeChallengeRegistry) :
    respond challenge.blobId challenge.chunkIndex challenge.provider challenge.challenger height
        sample registry = .ok responded after ↔ challenge.validateRespond height sample = .ok () ∧
        responded = { challenge.expire height with status := .responded } ∧
        after = registry.answered challenge height := by
  have expired : (registry.takeNewlyFailed height).2.challenges[challenge.marketKey]? =
      some (challenge.expire height) := by
    rw [takeNewlyFailed, Std.ExtTreeMap.getElem?_map, isChallenge, Option.map_some]
  rw [← challenge.validateRespond_expire_eq_ok_iff]
  rw [respond, EStateM.modify_bind, EStateM.get_bind, ← BlobSampleServeChallenge.marketKey]
  rw [expired]
  dsimp only
  cases (challenge.expire height).validateRespond height sample with
  | error reason => exact ⟨nofun, nofun⟩
  | ok checked =>
    change EStateM.Result.ok _ (registry.answered challenge height) = _ ↔ _
    simp [eq_comm]

/-- Every answer that closes the challenge shows the hash of the challenged chunk exactly if no
answer closes it, or every hash is one of such a chunk. -/
theorem answers_authentic_iff
    (isChallenge : registry.challenges[challenge.marketKey]? = some challenge) :
    (∀ sample responded after,
      respond challenge.blobId challenge.chunkIndex challenge.provider challenge.challenger height
          sample registry = .ok responded after →
        IsChunkHash challenge.blobId challenge.chunkIndex sample.chunkHash ∨
          HashCollision Crypto.blake3 sample.pathInputs) ↔
      ¬ challenge.Answerable height ∨
        ∀ hash, IsChunkHash challenge.blobId challenge.chunkIndex hash := by
  constructor
  · intro authentic
    by_cases answerable : challenge.Answerable height
    · right
      intro hash
      have closes := (respond_eq_ok_iff isChallenge (challenge.bareSample hash) _ _).mpr
        ⟨challenge.validateRespond_bareSample answerable hash, rfl, rfl⟩
      rcases authentic _ _ _ closes with isHash | collision
      · exact isHash
      · obtain ⟨first, isFirst, -⟩ := collision
        cases isFirst
    · exact .inl answerable
  · rintro (unanswerable | everyHash) sample responded after closes
    · have valid := ((respond_eq_ok_iff isChallenge _ _ _).mp closes).1
      exact absurd (challenge.answerable_of_validateRespond valid) unanswerable
    · exact .inl (everyHash _)

end SampleServeChallengeRegistry

end Answers

section EvenHashes

/-- A hash function that never gives an odd number. -/
local instance evenCrypto : Crypto :=
  { checksumCrypto with blake3 := fun bytes => checksum bytes &&& 0xfffe }

/-- Open until height ten, for the first chunk of a blob of two chunks. -/
def openChallenge : BlobSampleServeChallenge :=
  ⟨4, 0, 2, 1, 2, 0, 10, .opened, 5, 5, false, none⟩

def openChallenges : SampleServeChallengeRegistry :=
  { challenges := .insert ∅ openChallenge.marketKey openChallenge }

theorem openChallenge_isChallenge :
    openChallenges.challenges[openChallenge.marketKey]? = some openChallenge :=
  Std.ExtTreeMap.getElem?_insert_self

theorem one_not_chunkHash (blobId : BlobId) (index : ℕ) : ¬ IsChunkHash blobId index 1 := by
  rintro ⟨data, chunk, -, -, isHash⟩
  have lowest := congrArg (·.getLsbD 0) isHash
  simp [chunkHashOf, Crypto.blake3] at lowest

/-- The challenge is closed by an answer with a hash that is no hash of any bytes. -/
theorem bare_answer_closes_challenge :
    openChallenges.challenges[openChallenge.marketKey]? = some openChallenge ∧
      SampleServeChallengeRegistry.respond openChallenge.blobId openChallenge.chunkIndex
          openChallenge.provider openChallenge.challenger 3 (openChallenge.bareSample 1)
          openChallenges =
        .ok { openChallenge.expire 3 with status := .responded }
          (openChallenges.answered openChallenge 3) ∧
      ¬ IsChunkHash openChallenge.blobId openChallenge.chunkIndex 1 ∧
      ¬ HashCollision Crypto.blake3 (openChallenge.bareSample 1).pathInputs := by
  have answerable : openChallenge.Answerable 3 := ⟨rfl, by decide, by decide⟩
  refine ⟨openChallenge_isChallenge, ?_, one_not_chunkHash _ _, ?_⟩
  · rw [SampleServeChallengeRegistry.respond_eq_ok_iff openChallenge_isChallenge]
    exact ⟨openChallenge.validateRespond_bareSample answerable 1, rfl, rfl⟩
  · rintro ⟨first, isFirst, -⟩
    cases isFirst

/-- Past its deadline the challenge cannot be closed as answered, so nothing false is shown. -/
theorem late_answers_authentic :
    openChallenges.challenges[openChallenge.marketKey]? = some openChallenge ∧
      ∀ sample responded after,
        SampleServeChallengeRegistry.respond openChallenge.blobId openChallenge.chunkIndex
            openChallenge.provider openChallenge.challenger 11 sample openChallenges =
          .ok responded after →
        IsChunkHash openChallenge.blobId openChallenge.chunkIndex sample.chunkHash ∨
          HashCollision Crypto.blake3 sample.pathInputs :=
  ⟨openChallenge_isChallenge,
    (SampleServeChallengeRegistry.answers_authentic_iff openChallenge_isChallenge).mpr
      (.inl fun answerable => absurd answerable.2.1 (by decide))⟩

end EvenHashes

end BoingNetwork
