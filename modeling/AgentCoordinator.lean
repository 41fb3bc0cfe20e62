import AgentCoordinator.Access
import AgentCoordinator.Accounts.Basic
import AgentCoordinator.Accounts.Cbor
import AgentCoordinator.Accounts.Links
import AgentCoordinator.Accounts.Operators
import AgentCoordinator.Accounts.Service
import AgentCoordinator.Accounts.SignIn
import AgentCoordinator.Approvals
import AgentCoordinator.Artifacts
import AgentCoordinator.Autonomy
import AgentCoordinator.Backlog.Admission
import AgentCoordinator.Backlog.Basic
import AgentCoordinator.Backlog.Exports
import AgentCoordinator.Backlog.Imports
import AgentCoordinator.Backlog.Lifecycle
import AgentCoordinator.Backlog.Markdown
import AgentCoordinator.Backlog.Reverts
import AgentCoordinator.Backup
import AgentCoordinator.Board.Basic
import AgentCoordinator.Board.Coherent
import AgentCoordinator.Board.Custody
import AgentCoordinator.Board.Finished
import AgentCoordinator.Board.Holds
import AgentCoordinator.Board.Preserve
import AgentCoordinator.Board.Reviews
import AgentCoordinator.Board.Stranded
import AgentCoordinator.Breaker
import AgentCoordinator.Clock
import AgentCoordinator.Coordination
import AgentCoordinator.Decisions
import AgentCoordinator.Evidence
import AgentCoordinator.Integrator.ActionRefs
import AgentCoordinator.Integrator.Authority
import AgentCoordinator.Integrator.MintBudget
import AgentCoordinator.Integrator.Observe
import AgentCoordinator.Integrator.Preamble
import AgentCoordinator.Integrator.Privilege
import AgentCoordinator.Integrator.Queue
import AgentCoordinator.Integrator.Receipts
import AgentCoordinator.Integrator.Results
import AgentCoordinator.Integrator.Revise
import AgentCoordinator.Integrator.Service
import AgentCoordinator.Jobs
import AgentCoordinator.Library.Allocation
import AgentCoordinator.Library.Assignment
import AgentCoordinator.Library.Authority
import AgentCoordinator.Library.Batches
import AgentCoordinator.Library.Buckets
import AgentCoordinator.Library.Chain
import AgentCoordinator.Library.Crash
import AgentCoordinator.Library.Custody
import AgentCoordinator.Library.Digraph
import AgentCoordinator.Library.Fencing
import AgentCoordinator.Library.Guarded
import AgentCoordinator.Library.Headings
import AgentCoordinator.Library.Maps
import AgentCoordinator.Library.Monitor
import AgentCoordinator.Library.Outbox
import AgentCoordinator.Library.Paging
import AgentCoordinator.Library.Procedure
import AgentCoordinator.Library.Projection
import AgentCoordinator.Library.Reader
import AgentCoordinator.Library.Refusals
import AgentCoordinator.Library.Replace
import AgentCoordinator.Library.Stream
import AgentCoordinator.Library.Subsequence
import AgentCoordinator.Library.Table
import AgentCoordinator.Library.Team
import AgentCoordinator.Library.Text
import AgentCoordinator.Library.Transition
import AgentCoordinator.Library.Triple
import AgentCoordinator.Library.Utf8
import AgentCoordinator.Library.Window
import AgentCoordinator.Library.Yaml
import AgentCoordinator.Local.CandidatePush
import AgentCoordinator.Local.GitWorkflow
import AgentCoordinator.Local.Guardian
import AgentCoordinator.Local.PushProtocol
import AgentCoordinator.Local.ScanLog
import AgentCoordinator.Local.SecretScan
import AgentCoordinator.Parked
import AgentCoordinator.Policy
import AgentCoordinator.Receipts
import AgentCoordinator.Refinement.Accounts
import AgentCoordinator.Refinement.Activity
import AgentCoordinator.Refinement.Approvals
import AgentCoordinator.Refinement.Artifacts
import AgentCoordinator.Refinement.Authority
import AgentCoordinator.Refinement.Coordination
import AgentCoordinator.Refinement.Custody
import AgentCoordinator.Refinement.Integration
import AgentCoordinator.Refinement.Jobs
import AgentCoordinator.Refinement.Leases
import AgentCoordinator.Refinement.Ledger
import AgentCoordinator.Refinement.Policy
import AgentCoordinator.Refinement.Projection
import AgentCoordinator.Refinement.Reconcile
import AgentCoordinator.Refinement.Reopen
import AgentCoordinator.Refinement.Review
import AgentCoordinator.Refinement.Service
import AgentCoordinator.Refinement.Setting
import AgentCoordinator.Refinement.Submit
import AgentCoordinator.Retention
import AgentCoordinator.Safety.Activities
import AgentCoordinator.Safety.Anchors
import AgentCoordinator.Safety.Artifacts
import AgentCoordinator.Safety.Authority
import AgentCoordinator.Safety.Backups
import AgentCoordinator.Safety.Breakers
import AgentCoordinator.Safety.CandidatePush
import AgentCoordinator.Safety.Cbor
import AgentCoordinator.Safety.Compaction
import AgentCoordinator.Safety.Completion
import AgentCoordinator.Safety.Costs
import AgentCoordinator.Safety.Delivery
import AgentCoordinator.Safety.Guardian
import AgentCoordinator.Safety.Holds
import AgentCoordinator.Safety.Idempotency
import AgentCoordinator.Safety.Landings
import AgentCoordinator.Safety.LaunchSharing
import AgentCoordinator.Safety.Launches
import AgentCoordinator.Safety.LocalActions
import AgentCoordinator.Safety.MintGate
import AgentCoordinator.Safety.OldAccess
import AgentCoordinator.Safety.OutgoingScan
import AgentCoordinator.Safety.Ownership
import AgentCoordinator.Safety.Parking
import AgentCoordinator.Safety.Producers
import AgentCoordinator.Safety.Prompts
import AgentCoordinator.Safety.Publication
import AgentCoordinator.Safety.Quota
import AgentCoordinator.Safety.Reconciliation
import AgentCoordinator.Safety.Recoveries
import AgentCoordinator.Safety.Renewals
import AgentCoordinator.Safety.Reporters
import AgentCoordinator.Safety.Reports
import AgentCoordinator.Safety.Resources
import AgentCoordinator.Safety.Reviews
import AgentCoordinator.Safety.RunStates
import AgentCoordinator.Safety.Sections
import AgentCoordinator.Safety.ServiceTime
import AgentCoordinator.Safety.Snapshots
import AgentCoordinator.Safety.Staffing
import AgentCoordinator.Safety.Strikes
import AgentCoordinator.Safety.Timeouts
import AgentCoordinator.Safety.WorkGraph
import AgentCoordinator.Scenario
import AgentCoordinator.Schema
import AgentCoordinator.Service
import AgentCoordinator.StallClock
import AgentCoordinator.Supervisor.Prompt
import AgentCoordinator.Supervisor.Reaper
import AgentCoordinator.Supervisor.Report
import AgentCoordinator.Supervisor.RunLoop
import AgentCoordinator.Supervisor.RunState
import AgentCoordinator.Supervisor.Verdicts
import AgentCoordinator.Transport.Adapter
import AgentCoordinator.Transport.Claims
import AgentCoordinator.Transport.Cli
import AgentCoordinator.Transport.Endpoint
import AgentCoordinator.WorkGraph
import AgentCoordinator.Workflow.Activity
import AgentCoordinator.Workflow.Integration
import AgentCoordinator.Workflow.Reconcile
import AgentCoordinator.Workflow.Reopen
import AgentCoordinator.Workflow.Review
import AgentCoordinator.Workflow.Submit
import AgentCoordinator.Writes
