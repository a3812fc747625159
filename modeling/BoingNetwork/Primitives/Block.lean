import BoingNetwork.Primitives.Transaction

/-!
# Blocks

The block hash covers the header only: the signatures and priority tips of a
block are not part of it, and a missing `blobs_root` is left out of the encoding.
-/

namespace BoingNetwork

structure BlockHeader where
  parentHash : Hash
  height : ℕ
  timestamp : ℕ
  proposer : AccountId
  txRoot : Hash
  receiptsRoot : Hash
  stateRoot : Hash
  blobsRoot : Option Hash
deriving DecidableEq

structure Block where
  header : BlockHeader
  transactions : List Transaction
  signatures : List Signature
  priorityTips : List ℕ
deriving DecidableEq

/-- A block without transactions. -/
def Block.empty (header : BlockHeader) : Block := ⟨header, [], [], []⟩

/-- `bincode::serialize` of a header: fixed-width little-endian integers, arrays
as they are, and nothing for an absent `blobs_root`. -/
def BlockHeader.serialize (header : BlockHeader) : Bytes :=
  bytes32 header.parentHash ++ leBytes 8 header.height ++ leBytes 8 header.timestamp ++
    bytes32 header.proposer ++ bytes32 header.txRoot ++ bytes32 header.receiptsRoot ++
    bytes32 header.stateRoot ++
    match header.blobsRoot with
    | none => []
    | some root => 1 :: bytes32 root

def Block.hash [Crypto] (block : Block) : Hash :=
  Crypto.blake3 block.header.serialize

end BoingNetwork
