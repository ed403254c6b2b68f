import FalconSmartAccount.Falcon.Malleability
import FalconSmartAccount.Falcon.StatelessSimulation
import FalconSmartAccount.Falcon.DeployedTables
import FalconSmartAccount.Falcon.VerifierStack
import FalconSmartAccount.EntryPoint.ValidationData
import FalconSmartAccount.EntryPoint.Packing
import FalconSmartAccount.EntryPoint.Attribution
import FalconSmartAccount.EntryPoint.Unchecked
import FalconSmartAccount.EntryPoint.Deposits
import FalconSmartAccount.EntryPoint.Nonces
import FalconSmartAccount.EntryPoint.Receipts
import FalconSmartAccount.EntryPoint.StakeStates
import FalconSmartAccount.EntryPoint.EntryPointSimulations
import FalconSmartAccount.Falcon.PrecomputedKey
import FalconSmartAccount.Falcon.RejectionSampling
import FalconSmartAccount.Client.QueueRuns
import FalconSmartAccount.Client.PublicKeys
import FalconSmartAccount.Client.Signatures
import FalconSmartAccount.Account.Authority
import FalconSmartAccount.EntryPoint.ReceiptsOnce
import FalconSmartAccount.EntryPoint.Reentrancy
import FalconSmartAccount.EntryPoint.PostOps
import FalconSmartAccount.Paymaster.PaymasterFunds
import FalconSmartAccount.Client.SignatureEncoding
import FalconSmartAccount.EntryPoint.SimulatedExecution
import FalconSmartAccount.EntryPoint.Creations
