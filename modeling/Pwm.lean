import Pwm.Lib.MachineInt
import Pwm.Lib.MapSum
import Pwm.Lib.Attempt
import Pwm.Lib.Run
import Pwm.Lib.PrefixLog
import Pwm.Lib.Sequence
import Pwm.Lib.Bincode
import Pwm.Lib.LineFile
import Pwm.Lib.PairTree
import Pwm.Lib.Joined
import Pwm.Lib.Digits
import Pwm.Lib.RowTable
import Pwm.Core.Types
import Pwm.Core.Crypto
import Pwm.Core.Tx
import Pwm.Core.Genesis
import Pwm.Core.State
import Pwm.Core.Apply
import Pwm.Core.ApplySpec
import Pwm.Core.Serial
import Pwm.Core.Block
import Pwm.Core.Chain
import Pwm.Core.SealInPlace
import Pwm.Node.CrossShard
import Pwm.Node.Inner
import Pwm.Node.Worker
import Pwm.Node.Replay
import Pwm.Node.Skips
import Pwm.Node.Liveness
import Pwm.Node.Attest
import Pwm.Node.Cluster
import Pwm.Node.Agreement
import Pwm.Node.Hello
import Pwm.Node.Quorum
import Pwm.Node.LeaseBackend
import Pwm.Node.LeaseFence
import Pwm.Node.Lease
import Pwm.Node.SealFence
import Pwm.Ledger.Atomicity
import Pwm.Ledger.Steps
import Pwm.Ledger.Nonce
import Pwm.Ledger.Settlement
import Pwm.Ledger.Rows
import Pwm.Ledger.Pending
import Pwm.Ledger.Frozen
import Pwm.Ledger.Drain
import Pwm.Ledger.PolicyView
import Pwm.Ledger.PolicyModes
import Pwm.Ledger.FastPath
import Pwm.Ledger.Epochs
import Pwm.Ledger.StateRoot
import Pwm.Ledger.TxsRoot
import Pwm.Ledger.SigningMessage
import Pwm.Ledger.Supply
import Pwm.Snapshot.EpochStore
import Pwm.Snapshot.EpochFiles
import Pwm.Snapshot.BlockWriter
import Pwm.Snapshot.CrashSafety
import Pwm.Snapshot.Types
import Pwm.Snapshot.WireText
import Pwm.Snapshot.Wire
import Pwm.Snapshot.RoundTrip
import Pwm.Lib.CheckedLog
import Pwm.Snapshot.Repair
import Pwm.Ledger.Beside
import Pwm.Ledger.Evacuation
import Pwm.Ledger.OwnIds
import Pwm.Node.Admission
import Pwm.Node.HelloReplay
import Pwm.Node.SealLoss
import Pwm.Snapshot.Engines
import Pwm.Snapshot.EnginesAgree
import Pwm.Snapshot.EpochReaders
import Pwm.Snapshot.StoredChain
import Pwm.Snapshot.DiskSync
import Pwm.Snapshot.TrustedChain
import Pwm.Node.LedgerFacts
import Pwm.Node.RoamingLocks
import Pwm.Node.Commit
import Pwm.Node.HotCheck
import Pwm.Node.ApiCommit
import Pwm.Lib.KeyedQueue
import Pwm.Lib.Text
import Pwm.Lib.Bech32
import Pwm.Lib.Yaml
import Pwm.Core.Display
import Pwm.Ledger.Marks
import Pwm.Node.Offchain
import Pwm.Node.SyncQueue
import Pwm.Node.PeerWire
import Pwm.Node.PeerTrust
import Pwm.Node.Federation
import Pwm.Node.ActiveSet
import Pwm.Node.VouchedImports
import Pwm.Node.Prevalidated
import Pwm.Node.TwoShards
import Pwm.Node.PeerSession
import Pwm.Node.PeerRequests
import Pwm.Node.PeerWindows
import Pwm.Node.PeerAnswers
import Pwm.Node.PeerSync
import Pwm.Wallet.AddressBook
import Pwm.Wallet.AccountCodec
import Pwm.Wallet.Types
import Pwm.Wallet.Store
import Pwm.Wallet.ReadHeader
import Pwm.Wallet.NormalBook
import Pwm.Wallet.ReadersAgree
import Pwm.Wallet.HeaderUpgrade
import Pwm.Wallet.AccountEdit
import Pwm.Wallet.BookEdit
import Pwm.Node.SignedTexts
import Pwm.Lib.ByKey
import Pwm.Snapshot.RepairCrash
