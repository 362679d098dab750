import KaspaPortal.Lib.Bytes
import KaspaPortal.Lib.ScriptNumber
import KaspaPortal.Lib.CondMachine
import KaspaPortal.Primitives.Script
import KaspaPortal.Contract.Script.Push
import KaspaPortal.Transaction.Consensus
import KaspaPortal.Engine.Machine
import KaspaPortal.Engine.Rules
import KaspaPortal.Contract.Covenant.Escrow
import KaspaPortal.Guarantees.EscrowDestinations
import KaspaPortal.Contract.ShippingEscrow
import KaspaPortal.Engine.Ledger
import KaspaPortal.Contract.Covenant.GlobalThread
import KaspaPortal.Guarantees.ThreadCap
import KaspaPortal.Contract.Covenant.Allowance
import KaspaPortal.Guarantees.AllowanceOutflow
import KaspaPortal.Lib.MerkleTree
import KaspaPortal.Contract.Merkle
import KaspaPortal.Guarantees.MerkleWhitelist
import KaspaPortal.Contract.Crowdfund
import KaspaPortal.Guarantees.CrowdfundSpends
import KaspaPortal.Contract.Oracle
import KaspaPortal.Guarantees.OracleLineage
import KaspaPortal.Lib.Result
import KaspaPortal.Lib.Decisions
import KaspaPortal.Contract.Covenant.Branch
import KaspaPortal.Contract.Covenant.Execution
import KaspaPortal.Transaction.Pskt.CovenantPath
import KaspaPortal.Guarantees.ResolverTracer
import KaspaPortal.Guarantees.WitnessMachine
import KaspaPortal.Contract.Covenant.Locks
import KaspaPortal.Guarantees.LockedCovenants
import KaspaPortal.Lib.Codec
import KaspaPortal.Primitives.Locking
import KaspaPortal.Transaction.Model
import KaspaPortal.Transaction.Kspt.Wire
import KaspaPortal.Transaction.Kspt.Decode
import KaspaPortal.Transaction.Kspt.Envelope
import KaspaPortal.Transaction.Kspt.Accepts
import KaspaPortal.Transaction.Kspt.Encode
import KaspaPortal.Transaction.Sighash
import KaspaPortal.Transaction.Kspt.Validation
import KaspaPortal.Transaction.SignatureVerification
import KaspaPortal.Transaction.Kspt.Codec
import KaspaPortal.Transaction.Kspt.Replay
import KaspaPortal.Transaction.Kspt.InputControl
import KaspaPortal.Transaction.Kspt.View
import KaspaPortal.Transaction.Kspt.RedeemPool
import KaspaPortal.Transaction.Kspt.SourceEnvelope
import KaspaPortal.Guarantees.KsptCodec
import KaspaPortal.Transaction.Kspt.AntiKlepto.Host
import KaspaPortal.Transaction.Kspt.AntiKlepto.Checks
import KaspaPortal.Guarantees.AntiKleptoHost
import KaspaPortal.Lib.Schnorr
import KaspaPortal.Crypto.AntiKlepto
import KaspaPortal.Transaction.Kspt.AntiKlepto.Signer
import KaspaPortal.Transaction.Kspt.AntiKlepto.Session
import KaspaPortal.Transaction.Kspt.AntiKlepto.Finalized
import KaspaPortal.Guarantees.AntiKleptoSession
import KaspaPortal.Lib.Json
import KaspaPortal.Transaction.Pskt.Json
import KaspaPortal.Transaction.Pskt.Schema
import KaspaPortal.Primitives.Hex
import KaspaPortal.Transaction.Pskt.Compact
import KaspaPortal.Transaction.Pskt.Wire
import KaspaPortal.Transaction.Pskt.Verified
import KaspaPortal.Transaction.Pskt.Complete
import KaspaPortal.Guarantees.VerifiedCompletion
import KaspaPortal.Lib.Framing
import KaspaPortal.Guarantees.SighashBinding
import KaspaPortal.Lib.Outcome
import KaspaPortal.Lib.Saturating
import KaspaPortal.Lib.QueuedMap
import KaspaPortal.Indexer.Records
import KaspaPortal.Indexer.Store
import KaspaPortal.Indexer.Engine
import KaspaPortal.Indexer.Facade
import KaspaPortal.Indexer.Retention
import KaspaPortal.Indexer.Replay
import KaspaPortal.Indexer.Runs
import KaspaPortal.Indexer.Invariant
import KaspaPortal.Indexer.Backed
import KaspaPortal.Guarantees.IndexerStore
import KaspaPortal.Guarantees.MatchUniqueness
import KaspaPortal.Guarantees.ErrorAtomicity
import KaspaPortal.Guarantees.RetainedMetrics
import KaspaPortal.Guarantees.Persistence
import KaspaPortal.Guarantees.Reconciliation
import KaspaPortal.Lib.Chunks
import KaspaPortal.Transaction.Qr.Frame
import KaspaPortal.Transaction.Qr.Codec
import KaspaPortal.Transaction.Qr.Session
import KaspaPortal.Guarantees.QrTransfer
import KaspaPortal.Lib.JsonGrammar
import KaspaPortal.Transaction.Pskt.JsonReader
import KaspaPortal.Guarantees.JsonAcceptance
import KaspaPortal.Transaction.Pskt.Standard.Tokenizer
import KaspaPortal.Transaction.Pskt.Standard.SkipValue
import KaspaPortal.Lib.Radix
import KaspaPortal.Primitives.AddressCodec
import KaspaPortal.Guarantees.AddressCodec
import KaspaPortal.Transaction.Pskt.Specialized.MerkleClaim
import KaspaPortal.Crypto.Adaptor
import KaspaPortal.Guarantees.AdaptorSwap
import KaspaPortal.Lib.Simulation
import KaspaPortal.Wallet.Bip32.Scalar
import KaspaPortal.Wallet.Bip32.Child
import KaspaPortal.Guarantees.Bip32Agreement
import KaspaPortal.Lib.Sorting
import KaspaPortal.Wallet.Key.Account
import KaspaPortal.Wallet.Multisig.Grammar
import KaspaPortal.Guarantees.DescriptorIdentity
import KaspaPortal.Wallet.Multisig.Descriptor
import KaspaPortal.Transaction.Multisig
import KaspaPortal.Wallet.Multisig.Permuted
import KaspaPortal.Guarantees.SharedWallet
import KaspaPortal.Lib.Layout
import KaspaPortal.Transaction.Signing.Covenant
import KaspaPortal.Transaction.Signing.PrivateSwap
import KaspaPortal.Transaction.Signing.AntiKlepto
import KaspaPortal.Transaction.Signing.AntiKleptoLayout
import KaspaPortal.Guarantees.SigningCodecs
import KaspaPortal.Contract.Script.Elements
import KaspaPortal.Contract.Covenant.Recognize
import KaspaPortal.Randomness.Evidence
import KaspaPortal.Guarantees.ObservedBlocks
import KaspaPortal.Randomness.Beacon
import KaspaPortal.Guarantees.BeaconBinding
import KaspaPortal.Randomness.Curby
import KaspaPortal.Guarantees.CurbyCache
import KaspaPortal.Lib.BitSearch
import KaspaPortal.Transaction.Mass
import KaspaPortal.Guarantees.MaximumWithdraw
import KaspaPortal.Transaction.Analysis
import KaspaPortal.Transaction.Builder.Covenant
import KaspaPortal.Guarantees.DepositFee
import KaspaPortal.Lib.Buffer
import KaspaPortal.Lib.Pbkdf2
import KaspaPortal.Wallet.Mnemonic.Seed
import KaspaPortal.Guarantees.SeedDerivation
import KaspaPortal.Network.Wrpc
import KaspaPortal.Platform.NativeDriver
import KaspaPortal.Platform.DriverCalls
import KaspaPortal.Guarantees.DriverCalls
import KaspaPortal.Lib.Runs
import KaspaPortal.Guarantees.DriverNotifications
import KaspaPortal.Platform.BrowserNotifications
import KaspaPortal.Guarantees.BrowserNotifications
import KaspaPortal.Transaction.Kspt.SignedResponse
import KaspaPortal.Transaction.Builder.Funding
import KaspaPortal.Indexer.Added
import KaspaPortal.Guarantees.SyncReports
import KaspaPortal.Transaction.Estimate
import KaspaPortal.Lib.Iteration
import KaspaPortal.Transaction.Builder.Standard
import KaspaPortal.Guarantees.FeeFixpoint
import KaspaPortal.Transaction.Builder.Payload
import KaspaPortal.Guarantees.PayloadSend
import KaspaPortal.Wallet.Key.Base58
import KaspaPortal.Guarantees.Base58
import KaspaPortal.Lib.BitBuffer
import KaspaPortal.Wallet.Mnemonic.Encoding
import KaspaPortal.Guarantees.MnemonicEncoding
import KaspaPortal.Contract.Covenant.Identity
import KaspaPortal.Guarantees.GenesisIdentity
import KaspaPortal.Transaction.Policy.Time
import KaspaPortal.Guarantees.CalendarTime
import KaspaPortal.Guarantees.SigningWindows
import KaspaPortal.Transaction.Slots
import KaspaPortal.Guarantees.RedeemStorage
import KaspaPortal.Transaction.Pskt.Signatures
import KaspaPortal.Guarantees.SignaturePromotion
import KaspaPortal.Guarantees.CurrentScript
import KaspaPortal.Lib.Effect
import KaspaPortal.Transaction.Kspt.Signing.Slots
import KaspaPortal.Transaction.Kspt.Signing.EntryPoints
import KaspaPortal.Transaction.Kspt.Signing.Edits
import KaspaPortal.Transaction.Kspt.Signing.Calls
import KaspaPortal.Guarantees.SignatureSlots
import KaspaPortal.Lib.Growing
import KaspaPortal.Transaction.Kspt.Growing
import KaspaPortal.Transaction.Pskt.Standard.Preservation
import KaspaPortal.Transaction.Pskt.Standard.Serializer
import KaspaPortal.Guarantees.GrowingBuffers
import KaspaPortal.Contract.Recognizers
import KaspaPortal.Contract.Templates
import KaspaPortal.Contract.Readback
import KaspaPortal.Guarantees.Recognizers
import KaspaPortal.Transaction.Builder.GlobalThread
import KaspaPortal.Guarantees.GlobalThreadBuilder
import KaspaPortal.Transaction.Builder.Consolidation
import KaspaPortal.Guarantees.ConsolidationInputs
import KaspaPortal.Crypto.Ecies
import KaspaPortal.Privacy.Stealth
import KaspaPortal.Guarantees.XOnlyKeys
import KaspaPortal.Crypto.Kdf
import KaspaPortal.Indexer.Query
