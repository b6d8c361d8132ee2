import Doli.Lib.Run
import Doli.Core.Validation
import Doli.Node.ProcessUtxos
import Doli.Node.Reapply
import Doli.Node.Rebuild
import Doli.Node.ProducerRebuild
import Doli.Producer.WellDelegated
import Doli.Node.StakeWeight
import Doli.Core.Finality
import Doli.Core.EpochState
import Doli.Network.ForkChoice
import Doli.Storage.ReadYourWrites
import Doli.Node.NftIdentity
import Doli.Node.ShareLedger
import Doli.Node.ShareBacking
import Doli.Core.Maintainer
import Doli.Core.ChainState
import Doli.Producer.Persisted
import Doli.Core.Attestation
import Doli.Node.RefusedBlock
import Doli.Node.Rollback
import Doli.Node.PersistedSet
import Doli.Node.ProducedHeader
import Doli.Node.AttestationCredit
import Doli.Node.WithdrawalEnqueue
import Doli.Node.WithdrawalParity
import Doli.Core.EpochOrder
import Doli.Node.DelegationSymmetry
import Doli.Node.SunsetRun
import Doli.Node.DelegationReplay
import Doli.Storage.Canonical
import Doli.Storage.CanonicalImage
import Doli.Lib.Codec
import Doli.Producer.Wire
import Doli.Producer.Canonical
import Doli.Node.Snapshot
import Doli.Lib.Checks
import Doli.Lib.Merkle
import Doli.Validation.Block
import Doli.Validation.Context
import Doli.Validation.Payload
import Doli.Validation.Outputs
import Doli.Validation.ProducerAuth
import Doli.Validation.Slash
import Doli.Validation.Registration
import Doli.Validation.TransactionRules
import Doli.Validation.BlockRules
import Doli.Validation.Prepass
import Doli.Producer.BlsKeys
import Doli.Node.BlsKeyRun
import Doli.Validation.BlockIdentity
import Doli.Validation.PayloadAuthenticity
import Doli.Lib.Column
import Doli.Lib.Quorum
import Doli.Lib.Reserves
import Doli.Core.Pool
import Doli.Validation.PoolRules
import Doli.Lib.Worth
import Doli.Lib.Holdings
import Doli.Lib.Backing
import Doli.Validation.OutputAuthority
import Doli.Validation.Amm
import Doli.Validation.Spending
import Doli.Validation.SpendingAccepted
import Doli.Validation.PoolChange
import Doli.Validation.TokenConservation
import Doli.Validation.PoolRun
import Doli.Validation.ShareChange
import Doli.Core.MaintainerQuorum
import Doli.Storage.CanonicalIndex
import Doli.Storage.IndexRun
import Doli.Validation.SlashEvidence
import Doli.Network.Equivocation
import Doli.Network.EquivocationSound
import Doli.Network.EquivocationRun
import Doli.Node.SlashSubmit
import Doli.Node.MaintainerUndo
import Doli.Node.MaintainerRewind
import Doli.Validation.PoolTwap
import Doli.Validation.CoinbaseCredit
import Doli.Node.BlockEconomics
import Doli.Node.Issuance
import Doli.Core.ConditionCodec
import Doli.Core.Condition
import Doli.Core.ConditionEval
import Doli.Core.WitnessCodec
import Doli.Core.TransactionPreimage
import Doli.Validation.ContentBinding
import Doli.Core.Sighash
import Doli.Validation.InputSignature
import Doli.Validation.SlashBudget
import Doli.Node.SlashFacts
import Doli.Node.SlashAssembly
import Doli.Lib.Overflow
import Doli.Node.EpochRewards
import Doli.Node.EpochRewardWords
import Doli.Node.EpochRewardBlock
import Doli.Validation.SwapRules
import Doli.Lib.Freshest
import Doli.Discovery.GSet
import Doli.Discovery.Convergence
import Doli.Channels.Revocation
import Doli.Storage.InMemory
import Doli.Lib.Lineage
import Doli.Mempool.PackageRun
import Doli.Mempool.Consensus
import Doli.Lib.Selection
import Doli.Mempool.Selection
import Doli.Core.OracleSunset
import Doli.Core.MultisigKeys
import Doli.Core.Templates
import Doli.Core.MetadataCodec
import Doli.Core.SignedRefund
import Doli.Validation.RefundRules
import Doli.Lib.SortedCut
import Doli.Core.TierCap
import Doli.Lib.Weights
import Doli.Core.OracleMedian
import Doli.Validation.Royalty
import Doli.Mempool.Revalidation
import Doli.Storage.RebuildIndex
import Doli.Lib.Ancestry
import Doli.Network.HeaderDownload
import Doli.Node.BranchRank
import Doli.Node.VestingPenalty
import Doli.Core.MaintainerDerivation
import Doli.Lib.Grouping
import Doli.Node.MaintainerAnswers
import Doli.Lib.FirstMatch
import Doli.Channels.HtlcManager
import Doli.Channels.HtlcRun
import Doli.Lib.CheapestWalk
import Doli.Lib.CheapestSearch
import Doli.Lib.CheapestTie
import Doli.Channels.Router
import Doli.Channels.RouteFees
import Doli.Lib.Newton
import Doli.Lib.Decay
import Doli.Node.EmissionCap
import Doli.Producer.UnbondingIndex
import Doli.Node.ProducerCache
import Doli.Producer.BondLedger
import Doli.Network.BodyAccounts
import Doli.Network.ForkRecovery
import Doli.Network.ForkRecovery
import Doli.Node.StateSession
import Doli.Storage.ArchiveImport
