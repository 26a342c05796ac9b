import MidnightNode.Lib.StorageLayer
import MidnightNode.Lib.Groups
import MidnightNode.Lib.Hex
import MidnightNode.Lib.ListMap
import MidnightNode.Lib.SetRun
import MidnightNode.Lib.Replay
import MidnightNode.Lib.Traverse
import MidnightNode.Lib.Merkle
import MidnightNode.Lib.Rollback
import MidnightNode.Lib.Cover
import MidnightNode.Lib.Table
import MidnightNode.Lib.Vec
import MidnightNode.Lib.Loop
import MidnightNode.Lib.Locks
import MidnightNode.Lib.Chunks
import MidnightNode.Lib.Durable
import MidnightNode.Lib.Scale
import MidnightNode.Lib.Codec
import MidnightNode.Frame.Dispatch
import MidnightNode.Governance.FederatedAuthority
import MidnightNode.Governance.Steps
import MidnightNode.Governance.Collective
import MidnightNode.Governance.Runs
import MidnightNode.Governance.Weights
import MidnightNode.Governance.Observation
import MidnightNode.Governance.CardanoMembership
import MidnightNode.Governance.MembershipRuns
import MidnightNode.Cnight.Primitives
import MidnightNode.Cnight.Datum
import MidnightNode.Cnight.Queries
import MidnightNode.Cnight.Follower
import MidnightNode.Cnight.Observation
import MidnightNode.Cnight.Capacity
import MidnightNode.Cnight.CatchUp
import MidnightNode.Cnight.CanonicalOrder
import MidnightNode.Cnight.ChainObservation
import MidnightNode.Cnight.Pallet
import MidnightNode.Cnight.Inherent
import MidnightNode.Cnight.Book
import MidnightNode.Cnight.MappingLog
import MidnightNode.Cnight.DustEvents
import MidnightNode.Cnight.Genesis
import MidnightNode.Cnight.GenesisHistory
import MidnightNode.Cnight.Grpc
import MidnightNode.Authority.Candidates
import MidnightNode.Authority.CachedCandidates
import MidnightNode.Ledger.Transaction
import MidnightNode.Ledger.Utxos
import MidnightNode.Ledger.NetEffect
import MidnightNode.Ledger.Bridge
import MidnightNode.Ledger.Caches
import MidnightNode.Ledger.Transparency
import MidnightNode.Ledger.Semantics
import MidnightNode.Ledger.Events
import MidnightNode.Ledger.Dispatch
import MidnightNode.Ledger.BlockLimits
import MidnightNode.Ledger.UtxoOrdering
import MidnightNode.Ledger.OrderingOverrides
import MidnightNode.Ledger.ToolkitReplay
import MidnightNode.Ledger.ChainReplay
import MidnightNode.Ledger.NodeRuns
import MidnightNode.Beefy.AuthoritySets
import MidnightNode.Relay.AuthoritiesProof
import MidnightNode.Node.BeefyPayload
import MidnightNode.Relay.Relayer
import MidnightNode.Throttle.CheckThrottle
import MidnightNode.Node.FilteringPool
import MidnightNode.Toolkit.DustSpends
import MidnightNode.Toolkit.PayFees
import MidnightNode.Toolkit.ContractMaintenance
import MidnightNode.Toolkit.UtxoSelection
import MidnightNode.Toolkit.UnshieldedOffers
import MidnightNode.Toolkit.BatchRuns
import MidnightNode.Toolkit.WalletStateCache
import MidnightNode.Toolkit.RootCall
import MidnightNode.Toolkit.Upgrader
import MidnightNode.Toolkit.ContextLocks
import MidnightNode.Toolkit.FetchPlan
import MidnightNode.Toolkit.Fetcher
import MidnightNode.Toolkit.FetchRuns
