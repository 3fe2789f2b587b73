import AuditTrail.Config.Text
import AuditTrail.Main
import AuditTrail.Scenario.Command
import AuditTrail.Proofs.Backoff
import AuditTrail.Proofs.Cli.CursorCommands
import AuditTrail.Proofs.Columnar.Connecting
import AuditTrail.Proofs.Columnar.Rows
import AuditTrail.Proofs.Config.Expansion
import AuditTrail.Proofs.Config.Safety
import AuditTrail.Proofs.Decision
import AuditTrail.Proofs.Filter.Default
import AuditTrail.Proofs.Filter.Inclusion
import AuditTrail.Proofs.Filter.Masking
import AuditTrail.Proofs.Grouping
import AuditTrail.Proofs.Json.Extension
import AuditTrail.Proofs.Metrics
import AuditTrail.Proofs.Pipeline.Balance
import AuditTrail.Proofs.Pipeline.Completeness
import AuditTrail.Proofs.Pipeline.Following
import AuditTrail.Proofs.Pipeline.Handover
import AuditTrail.Proofs.Pipeline.Ingestion
import AuditTrail.Proofs.Pipeline.MarkerCursors
import AuditTrail.Proofs.Pipeline.Redelivery
import AuditTrail.Proofs.Pipeline.Scheduling
import AuditTrail.Proofs.Pipeline.Shutdown
import AuditTrail.Proofs.Pipeline.Uniqueness
import AuditTrail.Proofs.Resolution
import AuditTrail.Proofs.Store.Versions
import AuditTrail.Proofs.Sweep.Backlog
import AuditTrail.Proofs.Sweep.Report
import AuditTrail.Proofs.Writer.OnTime
