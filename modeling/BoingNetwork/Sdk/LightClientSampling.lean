import BoingNetwork.Library.Congruential
import BoingNetwork.Library.DistinctDraws
import BoingNetwork.Primitives.Blobs
import Mathlib.Data.List.Sort
import Mathlib.Data.ZMod.Basic

/-!
# Sampling of chunks by light clients

The node and the SDK draw the chunks of a sample from the same generator, the node modulo
`2 ^ 64` and the SDK with unbounded integers.  Draws that fall together are made up for by
further draws.  The node always ends, since its generator reaches every state, but it stops
when it is back at the seed, which may be too early; the SDK may draw forever.  If the number
of chunks is a power of two, the first draws are different and the same on both sides.
-/

namespace BoingNetwork

def PHASE6_MAX_DAS_LIGHT_CLIENT_SAMPLES : ℕ := 32

def SAMPLE_MULTIPLIER : ℕ := 6364136223846793005

def SAMPLE_SALT : ℕ := 0x9E3779B97F4A7C15

section Sampler

variable (wrap cut : ℕ → ℕ)

/-- The next state of the generator, in the arithmetic of the language. -/
def nextSample (state : ℕ) : ℕ := wrap (wrap (state * SAMPLE_MULTIPLIER) + 1)

def sampledChunk (chunks state : ℕ) : ℕ := cut (state % chunks)

def firstSamples (chunks : ℕ) : ℕ → ℕ → List ℕ
  | 0, _ => []
  | count + 1, state => sampledChunk cut chunks (nextSample wrap state) ::
      firstSamples chunks count (nextSample wrap state)

/-- How many chunks are wanted. -/
def samplesTaken (blobSize sampleCount : ℕ) : ℕ :=
  min (min sampleCount PHASE6_MAX_DAS_LIGHT_CLIENT_SAMPLES) (mediaBlobDasChunkCount blobSize)

/-- The draws before any are made up for, sorted and each one once. -/
def distinctSamples (blobSize sampleCount seed : ℕ) : List ℕ :=
  (firstSamples wrap cut (mediaBlobDasChunkCount blobSize) (samplesTaken blobSize sampleCount)
    (seed ^^^ wrap (mediaBlobDasChunkCount blobSize * SAMPLE_SALT))).dedup.insertionSort (· ≤ ·)

/-- The sampler, with fuel for the draws that make up for repeated ones. -/
def sampleIndices (fuel blobSize sampleCount seed : ℕ) : Option (List ℕ) :=
  if mediaBlobDasChunkCount blobSize = 0 ∨ sampleCount = 0 then some []
  else (DistinctDraws.fill (nextSample wrap)
    (sampledChunk cut (mediaBlobDasChunkCount blobSize)) (fun state => state == seed)
    (samplesTaken blobSize sampleCount) fuel (wrap (seed + 1))
    (distinctSamples wrap cut blobSize sampleCount seed)).map (·.insertionSort (· ≤ ·))

end Sampler

/-- `wrapping_mul` and `wrapping_add` of `u64`. -/
def wrap64 (value : ℕ) : ℕ := value % 2 ^ 64

/-- The cast to `u32`. -/
def cut32 (value : ℕ) : ℕ := value % 2 ^ 32

/-- The sampler of the node; its loop ends within `2 ^ 64` draws. -/
def dasLightClientSampleIndices (blobSize sampleCount : ℕ) (seed : BitVec 64) : List ℕ :=
  (sampleIndices wrap64 cut32 (2 ^ 64 + 1) blobSize sampleCount seed.toNat).getD []

def Sdk.dasLightClientSampleIndices (fuel blobSize sampleCount : ℕ) (seed : BitVec 64) :
    Option (List ℕ) :=
  sampleIndices id id fuel blobSize sampleCount seed.toNat

/-! ## The loop -/

section Loop

variable {wrap cut : ℕ → ℕ} {fuel blobSize sampleCount seed draws index : ℕ} {indices : List ℕ}

theorem firstSamples_eq (chunks count state : ℕ) : firstSamples wrap cut chunks count state =
      (List.range count).map fun index =>
        sampledChunk cut chunks ((nextSample wrap)^[index] (nextSample wrap state)) := by
  induction count generalizing state with
  | zero => rfl
  | succ count ih =>
    rw [firstSamples, ih, List.range_succ_eq_map, List.map_cons, List.map_map]
    rfl

theorem length_firstSamples (chunks count state : ℕ) :
    (firstSamples wrap cut chunks count state).length = count := by
  rw [firstSamples_eq, List.length_map, List.length_range]

theorem nodup_distinctSamples : (distinctSamples wrap cut blobSize sampleCount seed).Nodup :=
  (List.perm_insertionSort _ _).nodup_iff.mpr (List.nodup_dedup _)

theorem length_distinctSamples : (distinctSamples wrap cut blobSize sampleCount seed).length ≤
      samplesTaken blobSize sampleCount := by
  rw [distinctSamples, List.length_insertionSort]
  exact (List.dedup_sublist _).length_le.trans (length_firstSamples _ _ _).le

/-- What the loop returns is drawn from the generator. -/
theorem exists_of_mem_filled {drawn : List ℕ} {stop : ℕ → Bool} {enough state : ℕ}
    (filled : DistinctDraws.Filled (nextSample wrap)
      (sampledChunk cut (mediaBlobDasChunkCount blobSize)) stop enough state
      (distinctSamples wrap cut blobSize sampleCount seed) drawn draws)
    (member : index ∈ drawn) :
    ∃ other,
      index = sampledChunk cut (mediaBlobDasChunkCount blobSize) (nextSample wrap other) := by
  rw [← List.mem_toFinset, filled.reached] at member
  rcases Finset.mem_union.mp member with isFirst | isLater
  · rw [List.mem_toFinset, distinctSamples, List.mem_insertionSort, List.mem_dedup,
      firstSamples_eq] at isFirst
    obtain ⟨_, -, isDrawn⟩ := List.mem_map.mp isFirst
    rw [← Function.iterate_succ_apply, Function.iterate_succ_apply'] at isDrawn
    exact ⟨_, isDrawn.symm⟩
  · obtain ⟨_, -, isDrawn⟩ := Finset.mem_image.mp isLater
    rw [Function.iterate_succ_apply'] at isDrawn
    exact ⟨_, isDrawn.symm⟩

theorem exists_of_sampleIndices
    (returned : sampleIndices wrap cut fuel blobSize sampleCount seed = some indices) :
    ∃ drawn draws, indices = drawn.insertionSort (· ≤ ·) ∧
      DistinctDraws.Filled (nextSample wrap) (sampledChunk cut (mediaBlobDasChunkCount blobSize))
        (fun state => state == seed) (samplesTaken blobSize sampleCount) (wrap (seed + 1))
        (distinctSamples wrap cut blobSize sampleCount seed) drawn draws := by
  unfold sampleIndices at returned
  split at returned
  next nothing =>
    cases returned
    have noneTaken : samplesTaken blobSize sampleCount = 0 := by
      unfold samplesTaken
      omega
    have noneDrawn : distinctSamples wrap cut blobSize sampleCount seed = [] := by
      rw [← List.length_eq_zero_iff, ← Nat.le_zero, ← noneTaken]
      exact length_distinctSamples
    refine ⟨[], 0, rfl, List.nodup_nil, ?_, Nat.zero_le _, .inl noneTaken.symm⟩
    rw [DistinctDraws.reached_zero, noneDrawn]
  next =>
    obtain ⟨drawn, filled, rfl⟩ := Option.map_eq_some_iff.mp returned
    obtain ⟨draws, isFilled⟩ := DistinctDraws.exists_filled nodup_distinctSamples
      length_distinctSamples filled
    exact ⟨drawn, draws, rfl, isFilled⟩

theorem sampleIndices_mono {larger : ℕ} (more : fuel ≤ larger)
    (returned : sampleIndices wrap cut fuel blobSize sampleCount seed = some indices) :
    sampleIndices wrap cut larger blobSize sampleCount seed = some indices := by
  unfold sampleIndices at returned ⊢
  split
  next nothing => rwa [if_pos nothing] at returned
  next something =>
    rw [if_neg something] at returned
    obtain ⟨drawn, filled, isSorted⟩ := Option.map_eq_some_iff.mp returned
    rw [DistinctDraws.fill_mono more filled, Option.map_some, isSorted]

end Loop

/-! ## The node ends -/

section Generator

variable {modulus : ℕ} {wrap : ℕ → ℕ} (wraps : ∀ value, (wrap value : ZMod modulus) = value)

include wraps

theorem cast_nextSample (state : ℕ) : (nextSample wrap state : ZMod modulus) =
      Congruential.step (1 + 4 * (1591034055961698251 : ZMod modulus)) (1 + 2 * 0) state := by
  have isMultiplier : (SAMPLE_MULTIPLIER : ZMod modulus) =
      1 + 4 * (1591034055961698251 : ZMod modulus) := by
    rw [SAMPLE_MULTIPLIER]
    push_cast
    norm_num
  rw [nextSample, wraps, Nat.cast_add, wraps, Nat.cast_mul, isMultiplier, Congruential.step]
  ring

theorem cast_iterate_nextSample (draws state : ℕ) :
    ((nextSample wrap)^[draws] state : ZMod modulus) =
      (Congruential.step (1 + 4 * (1591034055961698251 : ZMod modulus)) (1 + 2 * 0))^[draws]
        state := by
  induction draws with
  | zero => rfl
  | succ draws ih =>
    rw [Function.iterate_succ_apply', Function.iterate_succ_apply', cast_nextSample wraps, ih]

end Generator

theorem cast_wrap64 {power : ℕ} (small : power ≤ 64) (value : ℕ) :
    (wrap64 value : ZMod (2 ^ power)) = value := by
  rw [ZMod.natCast_eq_natCast_iff', wrap64, Nat.mod_mod_of_dvd _ (Nat.pow_dvd_pow 2 small)]

theorem two_pow_zmod (width : ℕ) :
    (2 : ZMod (2 ^ (width + 1))) ^ (width + 1) = 0 ∧ (2 : ZMod (2 ^ (width + 1))) ^ width ≠ 0 := by
  refine ⟨by exact_mod_cast ZMod.natCast_self (2 ^ (width + 1)), ?_⟩
  have undivided : ¬2 ^ (width + 1) ∣ 2 ^ width := by
    rw [Nat.pow_dvd_pow_iff_le_right']
    omega
  rw [← ZMod.natCast_eq_zero_iff] at undivided
  exact_mod_cast undivided

theorem iterate_nextSample_lt (draws state : ℕ) :
    (nextSample wrap64)^[draws] (wrap64 state) < 2 ^ 64 := by
  have bounded : ∀ value, wrap64 value < 2 ^ 64 := fun value => by
    exact Nat.mod_lt value (Nat.two_pow_pos 64)
  cases draws with
  | zero => exact bounded state
  | succ draws =>
    rw [Function.iterate_succ_apply', nextSample]
    exact bounded _

/-- The generator of the node comes back to the seed. -/
theorem exists_draws_eq_seed {seed : ℕ} (small : seed < 2 ^ 64) :
    ∃ draws, 0 < draws ∧ draws < 2 ^ 64 ∧
      (nextSample wrap64)^[draws] (wrap64 (seed + 1)) = seed := by
  obtain ⟨vanishes, nonzero⟩ := two_pow_zmod 63
  obtain ⟨draws, bounded, isSeed⟩ := Congruential.exists_iterate_eq
    (1591034055961698251 : ZMod (2 ^ 64)) 0 (wrap64 (seed + 1) : ℕ) (seed : ℕ) vanishes nonzero
    (ZMod.card _)
  rw [← cast_iterate_nextSample (cast_wrap64 le_rfl), ZMod.natCast_eq_natCast_iff',
    Nat.mod_eq_of_lt small, Nat.mod_eq_of_lt (iterate_nextSample_lt draws (seed + 1))] at isSeed
  refine ⟨draws, Nat.pos_of_ne_zero ?_, bounded, isSeed⟩
  rintro rfl
  rw [Function.iterate_zero_apply, wrap64] at isSeed
  omega

theorem sampleIndices_node_isSome (blobSize sampleCount : ℕ) (seed : BitVec 64) :
    (sampleIndices wrap64 cut32 (2 ^ 64 + 1) blobSize sampleCount seed.toNat).isSome := by
  obtain ⟨draws, positive, bounded, isSeed⟩ := exists_draws_eq_seed seed.isLt
  unfold sampleIndices
  split
  next => rfl
  next =>
    rw [Option.isSome_map]
    exact DistinctDraws.fill_isSome positive (beq_iff_eq.mpr isSeed) (Nat.lt_succ_of_lt bounded)

/-! ## Agreement -/

section Agreement

variable {blobSize sampleCount : ℕ} {seed : BitVec 64}

/-- The node returns as many different chunks of the blob as are wanted, in order, and the SDK
returns the same. -/
structure SamplesAgree (blobSize sampleCount : ℕ) (seed : BitVec 64) : Prop where
  length : (dasLightClientSampleIndices blobSize sampleCount seed).length =
    min (min sampleCount 32) (mediaBlobDasChunkCount blobSize)
  sorted : (dasLightClientSampleIndices blobSize sampleCount seed).Pairwise (· < ·)
  inRange : ∀ index ∈ dasLightClientSampleIndices blobSize sampleCount seed,
    index < mediaBlobDasChunkCount blobSize
  sdk : ∃ fuel, Sdk.dasLightClientSampleIndices fuel blobSize sampleCount seed =
    some (dasLightClientSampleIndices blobSize sampleCount seed)

/-- The generator of the SDK never comes back. -/
theorem le_iterate_nextSample_id (draws state : ℕ) : state ≤ (nextSample id)^[draws] state := by
  induction draws with
  | zero => exact le_rfl
  | succ draws ih =>
    rw [Function.iterate_succ_apply']
    refine ih.trans ?_
    simp only [nextSample, id_eq, SAMPLE_MULTIPLIER]
    omega

/-- A sorted list without repetitions increases. -/
theorem pairwise_lt_insertionSort {list : List ℕ} (nodup : list.Nodup) :
    (list.insertionSort (· ≤ ·)).Pairwise (· < ·) :=
  (((List.perm_insertionSort _ _).nodup_iff.mpr nodup).and
    (List.pairwise_insertionSort _ _)).imp fun ⟨apart, le⟩ => Nat.lt_of_le_of_ne le apart

theorem sampledChunk_lt {chunks : ℕ} (positive : 0 < chunks) (state : ℕ) :
    sampledChunk cut32 chunks state < chunks :=
  (Nat.mod_le _ _).trans_lt (Nat.mod_lt _ positive)

/-- What the loop of the SDK keeps is as much as is wanted. -/
theorem card_of_filled_id {drawn : List ℕ} {draws : ℕ}
    (filled : DistinctDraws.Filled (nextSample id)
      (sampledChunk id (mediaBlobDasChunkCount blobSize)) (fun state => state == seed.toNat)
      (samplesTaken blobSize sampleCount) (id (seed.toNat + 1))
      (distinctSamples id id blobSize sampleCount seed.toNat) drawn draws) :
    drawn.length = samplesTaken blobSize sampleCount := by
  refine filled.ended.resolve_right fun ⟨_, stops⟩ => ?_
  have larger := le_iterate_nextSample_id draws (id (seed.toNat + 1))
  rw [beq_iff_eq.mp stops, id_eq] at larger
  omega

/-- Whatever the seed is, the list of the node increases, has chunks of the blob only, and is not
longer than is wanted. -/
theorem dasLightClientSampleIndices_bounded (blobSize sampleCount : ℕ) (seed : BitVec 64) :
    (dasLightClientSampleIndices blobSize sampleCount seed).Pairwise (· < ·) ∧
      (∀ index ∈ dasLightClientSampleIndices blobSize sampleCount seed,
        index < mediaBlobDasChunkCount blobSize) ∧
      (dasLightClientSampleIndices blobSize sampleCount seed).length ≤
        samplesTaken blobSize sampleCount := by
  obtain ⟨indices, returned⟩ := Option.isSome_iff_exists.mp
    (sampleIndices_node_isSome blobSize sampleCount seed)
  have isNode : dasLightClientSampleIndices blobSize sampleCount seed = indices := by
    rw [dasLightClientSampleIndices, returned, Option.getD_some]
  obtain ⟨drawn, draws, rfl, filled⟩ := exists_of_sampleIndices returned
  rw [isNode]
  refine ⟨pairwise_lt_insertionSort filled.nodup, fun index member => ?_, ?_⟩
  · rw [List.mem_insertionSort] at member
    have some : 0 < samplesTaken blobSize sampleCount :=
      (List.length_pos_of_mem member).trans_le filled.bound
    obtain ⟨state, rfl⟩ := exists_of_mem_filled filled member
    refine sampledChunk_lt ?_ _
    unfold samplesTaken at some
    omega
  · rw [List.length_insertionSort]
    exact filled.bound

section PowerOfTwo

variable {power : ℕ} {wrap cut : ℕ → ℕ} (wraps : ∀ value, (wrap value : ZMod (2 ^ power)) = value)
  (cuts : ∀ value < 2 ^ power, cut value = value)

include wraps cuts

/-- Modulo a power of two the arithmetic of the language does not matter. -/
theorem firstSamples_eq_of_pow {state other : ℕ} (same : (state : ZMod (2 ^ power)) = other)
    (count : ℕ) : firstSamples wrap cut (2 ^ power) count state =
      firstSamples id id (2 ^ power) count other := by
  rw [firstSamples_eq, firstSamples_eq]
  refine List.map_congr_left fun index _ => ?_
  rw [sampledChunk, cuts _ (Nat.mod_lt _ (Nat.two_pow_pos power)), sampledChunk, id_eq,
    ← ZMod.natCast_eq_natCast_iff', cast_iterate_nextSample wraps,
    cast_iterate_nextSample fun value => congrArg Nat.cast (id_eq value), cast_nextSample wraps,
    cast_nextSample fun value => congrArg Nat.cast (id_eq value), same]

omit wraps cuts in
/-- The first draws are different, since the generator runs through all residues. -/
theorem nodup_firstSamples_of_pow {count : ℕ} (few : count ≤ 2 ^ power) (state : ℕ) :
    (firstSamples id id (2 ^ power) count state).Nodup := by
  rw [firstSamples_eq]
  refine List.nodup_range.map_on fun first isFirst second isSecond same => ?_
  rw [List.mem_range] at isFirst isSecond
  cases power with
  | zero => omega
  | succ width =>
    obtain ⟨vanishes, nonzero⟩ := two_pow_zmod width
    rw [sampledChunk, sampledChunk, id_eq, id_eq, ← ZMod.natCast_eq_natCast_iff',
      cast_iterate_nextSample fun value => congrArg Nat.cast (id_eq value),
      cast_iterate_nextSample fun value => congrArg Nat.cast (id_eq value)] at same
    exact Congruential.iterate_injOn _ _ _ vanishes nonzero (isFirst.trans_le few)
      (isSecond.trans_le few) same

theorem distinctSamples_of_pow (isPow : mediaBlobDasChunkCount blobSize = 2 ^ power) (seed : ℕ) :
    distinctSamples wrap cut blobSize sampleCount seed =
      (firstSamples id id (2 ^ power) (samplesTaken blobSize sampleCount) seed).insertionSort
        (· ≤ ·) := by
  have salt := wraps (2 ^ power * SAMPLE_SALT)
  rw [Nat.cast_mul, ZMod.natCast_self, zero_mul, ZMod.natCast_eq_zero_iff] at salt
  have start : ((seed ^^^ wrap (2 ^ power * SAMPLE_SALT) : ℕ) : ZMod (2 ^ power)) = seed := by
    rw [ZMod.natCast_eq_natCast_iff', Nat.xor_mod_two_pow, Nat.mod_eq_zero_of_dvd salt,
      Nat.xor_zero]
  have few : samplesTaken blobSize sampleCount ≤ 2 ^ power := by
    rw [samplesTaken, isPow]
    exact min_le_right _ _
  rw [distinctSamples, isPow, firstSamples_eq_of_pow wraps cuts start,
    (nodup_firstSamples_of_pow few seed).dedup]

/-- Nothing has to be made up for. -/
theorem sampleIndices_of_pow (isPow : mediaBlobDasChunkCount blobSize = 2 ^ power)
    (wanted : sampleCount ≠ 0) (fuel seed : ℕ) :
    sampleIndices wrap cut (fuel + 1) blobSize sampleCount seed =
      some (((firstSamples id id (2 ^ power) (samplesTaken blobSize sampleCount) seed).insertionSort
        (· ≤ ·)).insertionSort (· ≤ ·)) := by
  have positive := Nat.two_pow_pos power
  rw [sampleIndices, if_neg (by omega), DistinctDraws.fill_eq_self, Option.map_some,
    distinctSamples_of_pow wraps cuts isPow]
  rw [distinctSamples_of_pow wraps cuts isPow, List.length_insertionSort, length_firstSamples]

end PowerOfTwo

theorem samplesAgree_of_eq_some {indices : List ℕ} {fuel : ℕ}
    (node : sampleIndices wrap64 cut32 (2 ^ 64 + 1) blobSize sampleCount seed.toNat = some indices)
    (sdk : sampleIndices id id fuel blobSize sampleCount seed.toNat = some indices)
    (length : indices.length = samplesTaken blobSize sampleCount) :
    SamplesAgree blobSize sampleCount seed := by
  have isNode : dasLightClientSampleIndices blobSize sampleCount seed = indices := by
    rw [dasLightClientSampleIndices, node, Option.getD_some]
  obtain ⟨sorted, inRange, -⟩ := dasLightClientSampleIndices_bounded blobSize sampleCount seed
  exact ⟨isNode ▸ length, sorted, inRange, fuel, isNode ▸ sdk⟩

end Agreement

end BoingNetwork
