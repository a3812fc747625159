import BoingNetwork.Primitives.Basic
import Mathlib.Data.List.Basic

/-!
# Leader election from verifiable randomness

Leader election at view 0 in VRF mode: the validator with the smallest verified
ECVRF output when every validator's proof is present, and otherwise an index
drawn from a digest of the round that every node can compute.
-/

namespace BoingNetwork

def VRF_DOMAIN : Bytes := asciiBytes "boing.vrf.leader.v1\x00"

/-- Length of an RFC 9381 Ed25519 ECVRF proof. -/
def ECVRF_PROOF_LEN : ℕ := 80

/-- The first eight output bytes as a little-endian index. -/
def vrfIndex (vrfOutput : VrfOutput) : ℕ :=
  ((bytes32 vrfOutput.output).take 8).foldr (fun byte rest => byte.toNat + 256 * rest) 0

def leaderFromVrf (validators : List AccountId) (vrfOutput : VrfOutput) : Option AccountId :=
  validators[vrfIndex vrfOutput % validators.length]?

theorem leaderFromVrf_isSome {validators : List AccountId} (nonempty : validators ≠ [])
    (vrfOutput : VrfOutput) : (leaderFromVrf validators vrfOutput).isSome := by
  have positive : 0 < validators.length := List.length_pos_iff.mpr nonempty
  simp [leaderFromVrf, Nat.mod_lt _ positive]

variable [Crypto]

def vrfRoundSeed (round : ℕ) : Hash :=
  Crypto.blake3 (VRF_DOMAIN ++ leBytes 8 round)

def vrfRoundAlpha (round : ℕ) : Bytes :=
  VRF_DOMAIN ++ leBytes 8 round

def verifyEcvrfOutput (publicKey : AccountId) (round : ℕ) (vrf : VrfOutput) : Bool :=
  vrf.proof.length == ECVRF_PROOF_LEN &&
    Crypto.ecvrfVerify publicKey vrf.proof (vrfRoundAlpha round) == some vrf.output

def leaderFromEcvrfProofs (validators : List AccountId) (round : ℕ)
    (proofs : List (AccountId × VrfOutput)) : Option AccountId :=
  let better (best : Option (AccountId × BitVec 256)) (validator : AccountId) :
      Option (Option (AccountId × BitVec 256)) :=
    match proofs.find? fun entry => entry.1 == validator with
    | none => none
    | some (_, vrf) =>
      if verifyEcvrfOutput validator round vrf then
        match best with
        | none => some (some (validator, vrf.output))
        | some (_, bestOutput) =>
          if vrf.output < bestOutput then some (some (validator, vrf.output)) else some best
      else none
  match validators.foldlM better none with
  | some (some (leader, _)) => some leader
  | _ => none

/-- The deterministic stand-in used while proofs are missing. -/
def dummyVrfOutput (round : ℕ) : VrfOutput where
  proof := bytes32 (Crypto.blake3 (VRF_DOMAIN ++ asciiBytes "prf" ++ bytes32 (vrfRoundSeed round)))
  output := Crypto.blake3 (VRF_DOMAIN ++ asciiBytes "out" ++ bytes32 (vrfRoundSeed round))

end BoingNetwork
