import BoingNetwork.Primitives.Basic

/-!
# A concrete choice of the cryptographic parameters

Runs on concrete inputs are evaluated with a polynomial checksum for the hash
function and with signatures that state the key and the message.
-/

namespace BoingNetwork

def checksum (bytes : Bytes) : Hash :=
  BitVec.ofNat 256 (bytes.foldl (fun sum byte => sum * 257 + byte.toNat + 1) 0)

@[reducible]
def checksumCrypto : Crypto where
  blake3 := checksum
  verifyingKey key := key
  sign key message := key ++ message
  verifyStrict key message signature :=
    if signature = key ++ message then .ok () else .error .invalidSignature
  ecvrfVerify _ _ _ := none

namespace Checksum

scoped instance crypto : Crypto := checksumCrypto

end Checksum

end BoingNetwork
