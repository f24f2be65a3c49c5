import ShinzoGenerator.Lib.Attempt
import ShinzoGenerator.Lib.Doubling
import ShinzoGenerator.Lib.EventLog
import ShinzoGenerator.Lib.Framing
import ShinzoGenerator.Lib.GuardedSystem
import ShinzoGenerator.Lib.Hex
import ShinzoGenerator.Lib.Json
import ShinzoGenerator.Lib.JsonProperties
import ShinzoGenerator.Lib.KeyedLists
import ShinzoGenerator.Lib.Lines
import ShinzoGenerator.Lib.MerkleTree
import ShinzoGenerator.Lib.ReorderBuffer
import ShinzoGenerator.Lib.Sha256
import ShinzoGenerator.Lib.SoftStore
import ShinzoGenerator.Lib.TopElements
import ShinzoGenerator.Lib.TextSearch
import ShinzoGenerator.Lib.FirstOccurrences
import ShinzoGenerator.Lib.Strconv
import ShinzoGenerator.Lib.Numerals
import ShinzoGenerator.Lib.PrintedNumerals
import ShinzoGenerator.Errors
import ShinzoGenerator.Backoff
import ShinzoGenerator.Chains.Documents
import ShinzoGenerator.Defra.Database
import ShinzoGenerator.Defra.BlockHandler
import ShinzoGenerator.Defra.Batches
import ShinzoGenerator.Defra.BlockHandlerProperties
import ShinzoGenerator.Defra.StoreAccount
import ShinzoGenerator.Defra.LinkedGroups
import ShinzoGenerator.Defra.SignExisting
import ShinzoGenerator.Defra.ReorgRoller
import ShinzoGenerator.Defra.ReorgRollerProperties
import ShinzoGenerator.Defradb.Keyring
import ShinzoGenerator.Defradb.KeyringProperties
import ShinzoGenerator.Defradb.LegacyKeys
import ShinzoGenerator.Defradb.NetworkHandler
import ShinzoGenerator.Defradb.NetworkHandlerProperties
import ShinzoGenerator.Indexer.Continuity
import ShinzoGenerator.Indexer.ForkPoint
import ShinzoGenerator.Indexer.OrderedApply
import ShinzoGenerator.Indexer.Run
import ShinzoGenerator.Indexer.StoreWithRetry
import ShinzoGenerator.Indexer.FetchWithRetry
import ShinzoGenerator.Indexer.WalkBack
import ShinzoGenerator.Indexer.RunSteps
import ShinzoGenerator.Indexer.RunInvariants
import ShinzoGenerator.Indexer.RunExecution
import ShinzoGenerator.Indexer.RunPool
import ShinzoGenerator.Indexer.RunHandoff
import ShinzoGenerator.Indexer.RunDelivery
import ShinzoGenerator.Indexer.RunEpisodes
import ShinzoGenerator.Indexer.RunRollbackPoint
import ShinzoGenerator.Indexer.StaleHeights
import ShinzoGenerator.Indexer.ProcessBlocks
import ShinzoGenerator.Indexer.RunLimits
import ShinzoGenerator.Indexer.VisibleBlocks
import ShinzoGenerator.Indexer.Provenance
import ShinzoGenerator.Indexer.StartHeight
import ShinzoGenerator.Indexer.Resume
import ShinzoGenerator.Indexer.ConfiguredStart
import ShinzoGenerator.Indexer.Recovery
import ShinzoGenerator.Indexer.RecoveryRestart
import ShinzoGenerator.Indexer.RecoveryCall
import ShinzoGenerator.Indexer.RecoverySchedule
import ShinzoGenerator.Indexer.Lifecycle
import ShinzoGenerator.Indexer.LifecycleProperties
import ShinzoGenerator.Indexer.Ownership
import ShinzoGenerator.Pruner.IndexerQueue
import ShinzoGenerator.Pruner.IndexerQueueProperties
import ShinzoGenerator.Pruner.QueueConservation
import ShinzoGenerator.Pruner.Pruner
import ShinzoGenerator.Pruner.PrunerProperties
import ShinzoGenerator.Pruner.PruneRuns
import ShinzoGenerator.Pruner.TrackedCommits
import ShinzoGenerator.Pruner.Retention
import ShinzoGenerator.Pruner.Checkpoint
import ShinzoGenerator.Pruner.Custody
import ShinzoGenerator.Snapshot.Snapshotter
import ShinzoGenerator.Snapshot.SnapshotterRuns
import ShinzoGenerator.Snapshot.Coverage
import ShinzoGenerator.Snapshot.KvSnapshot
import ShinzoGenerator.Snapshot.KvSnapshotProperties
import ShinzoGenerator.Snapshot.Signing
import ShinzoGenerator.Snapshot.Verify
import ShinzoGenerator.Snapshot.VerifyProperties
import ShinzoGenerator.Snapshot.Commitment
import ShinzoGenerator.Snapshot.Retained
import ShinzoGenerator.Snapshot.SignatureDocs
import ShinzoGenerator.Snapshot.Archive
import ShinzoGenerator.Server.SnapshotEndpoints
import ShinzoGenerator.Configuration
import ShinzoGenerator.ConfigurationProperties
import ShinzoGenerator.Evm.LinkStamper
import ShinzoGenerator.Evm.Converter
import ShinzoGenerator.Evm.Progress
import ShinzoGenerator.Indexer.StartAbove
import ShinzoGenerator.Evm.AccessLists
import ShinzoGenerator.Evm.StoredLinks
import ShinzoGenerator.Evm.Fetcher
import ShinzoGenerator.Evm.FetchedOutcomes
import ShinzoGenerator.Evm.BlockNumbers
import ShinzoGenerator.Evm.Geth
import ShinzoGenerator.Evm.EthereumClient
import ShinzoGenerator.Evm.ChainBlocks
import ShinzoGenerator.Evm.FetchRetries
import ShinzoGenerator.Evm.ServedBlocks
import ShinzoGenerator.Defra.StoredHeights
import ShinzoGenerator.Indexer.RestoredBlocks
import ShinzoGenerator.Evm.ReorgedBlocks
