import ForwardedIp.Config.Document
import ForwardedIp.Host.Memory
import ForwardedIp.Ledger.Switched
import ForwardedIp.Main
import ForwardedIp.Proofs.Ownership
import ForwardedIp.Proofs.Remembrance
import ForwardedIp.Proofs.Skipping
import ForwardedIp.Proofs.Truthfulness
import ForwardedIp.Proofs.Convergence
import ForwardedIp.Proofs.ChangeGate
import ForwardedIp.Proofs.Retries
import ForwardedIp.Proofs.LinuxDeletions
import ForwardedIp.Proofs.PendingRetries
import ForwardedIp.Proofs.LedgerRestarts
import ForwardedIp.Proofs.Adoption
import ForwardedIp.Proofs.FailoverAddresses
import ForwardedIp.Proofs.Frames
import ForwardedIp.Proofs.HostRefinement
import ForwardedIp.Proofs.Reporting
import ForwardedIp.Proofs.DeclarationOrder
import ForwardedIp.Proofs.LedgerDrift
import ForwardedIp.Proofs.LedgerBackups
import ForwardedIp.Proofs.EntityTags
import ForwardedIp.Proofs.WrittenRecords
import ForwardedIp.Proofs.Accounting
import ForwardedIp.Proofs.LoopHistory
import ForwardedIp.Proofs.FaithfulEvents
import ForwardedIp.Proofs.Spellings
import ForwardedIp.Proofs.StatusEdges
import ForwardedIp.Proofs.BadInput
import ForwardedIp.Proofs.AcceptedConfigs
import ForwardedIp.Proofs.IgnoredFilters
import ForwardedIp.Proofs.AttemptPacing
import ForwardedIp.Proofs.SnapshotDocuments
import ForwardedIp.Proofs.Precedence
import ForwardedIp.Proofs.MacGrammar
import ForwardedIp.Proofs.AddressLists
import ForwardedIp.Proofs.ComparisonForms
