import OpenGuard.Lib.Run
import OpenGuard.Lib.SortDedup
import OpenGuard.Lib.Table
import OpenGuard.Lib.Text
import OpenGuard.Lib.IpAddr
import OpenGuard.Detection.Risk
import OpenGuard.Service.Baseline
import OpenGuard.Service.Correlation
import OpenGuard.Lib.BoundedLoop
import OpenGuard.Windows.FileMonitor
import OpenGuard.Windows.EventXml
import OpenGuard.Service.Beacon
import OpenGuard.Service.Payload
import OpenGuard.Storage.Quarantine
import OpenGuard.Service.Restore
import OpenGuard.Service.Quarantine
import OpenGuard.Windows.Firewall
import OpenGuard.Service.Response
import OpenGuard.Service.Blocks
import OpenGuard.Service.BlockInvariant
import OpenGuard.Service.BlockRecovery
import OpenGuard.Lib.Window
import OpenGuard.Service.BehaviorChain
import OpenGuard.Service.ChainHistory
import OpenGuard.Service.ChainRuns
import OpenGuard.Service.ChainProjection
import OpenGuard.Service.ChainStore
import OpenGuard.Service.ChainCooldown
import OpenGuard.Service.ChainCompleteness
import OpenGuard.Service.ChainOrder
import OpenGuard.Lib.RowTable
import OpenGuard.Storage.Events
import OpenGuard.Storage.Database
import OpenGuard.Storage.Mirrors
import OpenGuard.Storage.Paging
import OpenGuard.Lib.Rank
import OpenGuard.Lib.Timestamp
import OpenGuard.Service.RecentEvents
import OpenGuard.Lib.Unwinding
import OpenGuard.Storage.Isolation
import OpenGuard.Service.BaselineHistory
import OpenGuard.Service.Transitions
import OpenGuard.Service.Interleaving
import OpenGuard.Service.Lifecycle
import OpenGuard.Lib.Stream
import OpenGuard.Ipc.Frame
import OpenGuard.Lib.Json
import OpenGuard.Lib.Serde
import OpenGuard.Ipc.Protocol
import OpenGuard.Lib.JsonText
import OpenGuard.Ipc.History
import OpenGuard.Detection.Scan
import OpenGuard.Lib.JsonValue
import OpenGuard.Lib.Fallible
import OpenGuard.Updates.Install
import OpenGuard.Updates.Staging
import OpenGuard.Updates.Authenticity
import OpenGuard.Updates.Rules
import OpenGuard.Windows.Reputation
import OpenGuard.Updates.Activation
import OpenGuard.Lib.Program
import OpenGuard.Updates.Steps
import OpenGuard.Updates.Atomicity
import OpenGuard.Lib.JsonCanonical
import OpenGuard.Lib.DecodeSame
import OpenGuard.Updates.Signature
import OpenGuard.Updates.Immutability
import OpenGuard.Service.Content
import OpenGuard.Service.ContentRuns
import OpenGuard.Service.ContentRollback
import OpenGuard.Service.ScanWorker
import OpenGuard.Service.ScanProgress
import OpenGuard.Service.ScanPolicy
import OpenGuard.Service.ScanFindings
import OpenGuard.Service.NewExecutables
import OpenGuard.Service.RealtimeScan
import OpenGuard.Storage.PersistenceDiff
import OpenGuard.Lib.Access
import OpenGuard.Windows.Persistence
import OpenGuard.Windows.PersistenceIds
import OpenGuard.Service.Inventory
import OpenGuard.Service.InventoryCoverage
import OpenGuard.Windows.PersistenceControl
import OpenGuard.Service.PersistenceResponse
import OpenGuard.Windows.ProcessTree
import OpenGuard.Service.QuarantineRace
import OpenGuard.Service.AuditTrail
import OpenGuard.Lib.Fair
import OpenGuard.Service.ScanJobs
import OpenGuard.Service.ScanStart
import OpenGuard.Detection.Capabilities
import OpenGuard.Detection.FileScan
import OpenGuard.Windows.ScanSignals
import OpenGuard.Service.Verdicts
import OpenGuard.Windows.Reconciliation
import OpenGuard.Windows.BaselineRuns
import OpenGuard.Windows.TreeOrder
import OpenGuard.Windows.TreeRefusal
import OpenGuard.Service.QuarantineFailure
import OpenGuard.Service.RoundTrip
import OpenGuard.Service.Integrity
import OpenGuard.Service.FileActivity
import OpenGuard.Service.Suppression
import OpenGuard.Detection.Reading
import OpenGuard.Lib.Components
import OpenGuard.Storage.Coverage
import OpenGuard.Windows.Certainty
import OpenGuard.Windows.Explanation
import OpenGuard.Service.Withdrawal
import OpenGuard.Detection.ProcessRisk
import OpenGuard.Detection.Location
import OpenGuard.Lib.DirectoryTree
import OpenGuard.Service.ScanTargets
import OpenGuard.Service.FullScan
import OpenGuard.Service.ClientRights
import OpenGuard.Lib.Occurrence
import OpenGuard.Detection.MoreEvidence
import OpenGuard.Detection.ApiReferences
import OpenGuard.Lib.IpText
import OpenGuard.Lib.IpNetwork
import OpenGuard.Windows.Classification
import OpenGuard.Service.LocalAddresses
import OpenGuard.Windows.FirewallScope
import OpenGuard.Service.BaselineRetry
import OpenGuard.Lib.Lines
import OpenGuard.Windows.EtwHelper
import OpenGuard.Service.EtwReader
import OpenGuard.Lib.Utf8Bytes
import OpenGuard.Lib.Uncovered
import OpenGuard.Windows.EventDetail
import OpenGuard.Detection.Independence
import OpenGuard.App.RowLists
import OpenGuard.Lib.Like
import OpenGuard.Storage.Search
import OpenGuard.Updates.VersionNames
import OpenGuard.Lib.Machine
import OpenGuard.Detection.PeHeader
import OpenGuard.Windows.TableRows
import OpenGuard.Lib.JsonFlat
import OpenGuard.Service.EtwRoundTrip
import OpenGuard.Windows.GapRuns
import OpenGuard.Lib.WindowsPath
import OpenGuard.Lib.WindowsJoin
import OpenGuard.Updates.ContentPlaces
import OpenGuard.Service.CooldownTable
import OpenGuard.Service.PipeServer
import OpenGuard.Ipc.Exchange
import OpenGuard.Windows.HostNames
import OpenGuard.Lib.Mailbox
import OpenGuard.Windows.EventIntake
import OpenGuard.Service.EventPersistence
import OpenGuard.App.Investigation
import OpenGuard.Windows.MemoryMap
import OpenGuard.Service.ProcessAnalysis
import OpenGuard.Service.ProtectionLoop
import OpenGuard.Windows.AmsiProvider
import OpenGuard.Windows.ProviderObjects
import OpenGuard.Lib.BudgetedCache
import OpenGuard.Windows.SignatureCache
import OpenGuard.App.CancelButton
import OpenGuard.App.CleanScan
