import BoingNetwork.Primitives.BlockRoots
import BoingNetwork.Primitives.Intent
import BoingNetwork.Consensus.AnchorMode
import BoingNetwork.Consensus.EngineInvariant
import BoingNetwork.Consensus.ViewSearch
import BoingNetwork.State.GovernancePhases
import BoingNetwork.State.ReverseNames
import BoingNetwork.State.ServeResponse
import BoingNetwork.Execution.Alignment
import BoingNetwork.Execution.GasBound
import BoingNetwork.Execution.OperandRange
import BoingNetwork.Execution.Redenomination
import BoingNetwork.Execution.Supply
import BoingNetwork.Execution.WordArithmetic
import BoingNetwork.Node.AccountProofs
import BoingNetwork.Node.Admission
import BoingNetwork.Node.BlobAccess
import BoingNetwork.Node.BlobIngest
import BoingNetwork.Node.BlobPromises
import BoingNetwork.Node.BlobRestart
import BoingNetwork.Node.CatchUp
import BoingNetwork.Node.CrossChain
import BoingNetwork.Node.Emission
import BoingNetwork.Node.LedgerRuns
import BoingNetwork.Node.QaResolution
import BoingNetwork.Node.ReceiptLookups
import BoingNetwork.Node.StakeValidators
import BoingNetwork.Node.UnbondingLock
import BoingNetwork.Sdk.LightClientSampling
import BoingNetwork.Sdk.NftOwners
import BoingNetwork.Sdk.Routing
import BoingNetwork.Sdk.TransactionId
