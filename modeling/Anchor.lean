import Anchor.Library.Ssz
import Anchor.Library.SszCanonical
import Anchor.Library.SortedMap
import Anchor.Library.Locking
import Anchor.Library.Checks
import Anchor.Library.Pick
import Anchor.SsvTypes.Basic
import Anchor.SsvTypes.Message
import Anchor.Qbft.Types
import Anchor.Qbft.MsgContainer
import Anchor.Qbft.Instance
import Anchor.Qbft.Encoding
import Anchor.Qbft.Transition
import Anchor.Qbft.Justification
import Anchor.Validator.ConsensusMessage
import Anchor.Qbft.Run
import Anchor.Qbft.Simulation
import Anchor.Qbft.Stored
import Anchor.Qbft.Evidence
import Anchor.Qbft.Sent
import Anchor.Qbft.Prepared
import Anchor.Qbft.RoundStart
import Anchor.Qbft.Proposal
import Anchor.Network.Run
import Anchor.Network.Simulation
import Anchor.Network.Genuine
import Anchor.Network.Rounds
import Anchor.Network.Equivocation
import Anchor.Network.Agreement
import Anchor.Network.Coherence
import Anchor.Network.ProposalCompleteness
import Anchor.Network.LeaderEmission
import Anchor.Qbft.Commit
import Anchor.Network.CommitCompletion
import Anchor.Network.CrossInstance
import Anchor.Qbft.Decision
import Anchor.QbftManager.Instance
import Anchor.Library.Observation
import Anchor.Library.RingBuffer
import Anchor.SsvTypes.MsgId
import Anchor.SsvTypes.PartialSig
import Anchor.Validator.DutyState
import Anchor.Validator.Observed
import Anchor.Validator.Duty
import Anchor.Validator.QbftLogic
import Anchor.Validator.PartialSignature
import Anchor.Validator.Verdict
import Anchor.Validator.Run
import Anchor.Validator.Entries
import Anchor.Validator.Limits
import Anchor.QbftManager.Routing
import Anchor.Validator.Window
import Anchor.Validator.DutyCount
import Anchor.Validator.Cleaner
import Anchor.Library.SecretSharing
import Anchor.SignatureCollector.BlsLagrange
import Anchor.SignatureCollector.Collector
import Anchor.SignatureCollector.Completion
import Anchor.Library.Machine
import Anchor.SignatureCollector.Basic
import Anchor.SignatureCollector.CommitteeBatch
import Anchor.SignatureCollector.SingleValidatorBatch
import Anchor.SignatureCollector.Retention
import Anchor.Database.MultiIndex
import Anchor.Database.Sql
import Anchor.Database.State
import Anchor.Eth.EventProcessor
import Anchor.Eth.LogEffect
import Anchor.Database.Statements
import Anchor.Database.WellFormed
import Anchor.Database.Mirror
import Anchor.Database.Replay
import Anchor.Database.Rebuild
import Anchor.Eth.Replays
import Anchor.Eth.Chain
import Anchor.Eth.Identity
import Anchor.Eth.Indices
import Anchor.Eth.ClusterStatus
import Anchor.ValidatorStore.CommitteeSigning
import Anchor.SsvTypes.Beacon
import Anchor.SsvTypes.Consensus
import Anchor.Eth.Bookkeeping
import Anchor.Eth.Atomicity
import Anchor.Eth.Stalls
import Anchor.Eth.Nonce
import Anchor.DutiesTracker.Retention
import Anchor.DutiesTracker.ExitLimit
import Anchor.DutiesTracker.ScheduledExits
import Anchor.BlsLagrange.Shares
import Anchor.Library.Hex
import Anchor.Keysplit.Pairing
import Anchor.SubnetService.Subnet
import Anchor.Keysplit.RoundTrip
import Anchor.Fork.Lifecycle
import Anchor.QbftManager.Leader
import Anchor.QbftManager.Timeout
import Anchor.Fork.Monitor
import Anchor.QbftManager.Quiescence
import Anchor.Library.FirstWins
import Anchor.Qbft.AggregatedCommit
import Anchor.ValidatorStore.AggregatorPostConsensus
import Anchor.ValidatorStore.BeaconVote
import Anchor.ValidatorStore.ProposedValue
import Anchor.SignatureCollector.Evidence
import Anchor.SignatureCollector.ProposerPacket
import Anchor.Library.Rounding
import Anchor.Library.Bitfield
import Anchor.PeerManager.Connection
import Anchor.PeerManager.Bookkeeping
import Anchor.PeerManager.ConnectionCap
import Anchor.Library.RefCount
import Anchor.SubnetService.Subscriptions
import Anchor.SubnetService.TopicEvents
import Anchor.SubnetService.Gossip
import Anchor.Eth.FetchLogs
import Anchor.Fork.Windows
import Anchor.BlsLagrange.Inverse
