import LitmusPortal.Lib.Transition
import LitmusPortal.Lib.Collection
import LitmusPortal.Lib.Effects
import LitmusPortal.Lib.GoStrings
import LitmusPortal.Schema
import LitmusPortal.Cluster.Verify
import LitmusPortal.Workflow.Store
import LitmusPortal.Workflow.Run
import LitmusPortal.Workflow.RunLemmas
import LitmusPortal.Workflow.Rewrite
import LitmusPortal.Workflow.Calls
import LitmusPortal.Workflow.UniqueRuns
import LitmusPortal.Workflow.LostUpdates
import LitmusPortal.Workflow.LifeCycle
import LitmusPortal.Workflow.Isolation
import LitmusPortal.GitOps.Config
import LitmusPortal.GitOps.History
import LitmusPortal.GitOps.Changes
import LitmusPortal.Workflow.Manifest
import LitmusPortal.Workflow.Process
import LitmusPortal.GitOps.Sync
import LitmusPortal.GitOps.FileChange
import LitmusPortal.GitOps.OrderIndependence
import LitmusPortal.GitOps.Repo
import LitmusPortal.GitOps.Store
import LitmusPortal.GitOps.SkippedChanges
import LitmusPortal.GitOps.Upsert
import LitmusPortal.GitOps.Atomicity
import LitmusPortal.GitOps.Agreement
import LitmusPortal.Lib.LockOrder
import LitmusPortal.GitOps.Lock
import LitmusPortal.DataStore.Subscriptions
import LitmusPortal.DataStore.Deadlock
import LitmusPortal.DataStore.ActiveFlag
import LitmusPortal.DataStore.Replies
import LitmusPortal.Cluster.Registration
import LitmusPortal.Cluster.Deregistration
import LitmusPortal.Cluster.Confirmations
import LitmusPortal.Agent.StartUp
import LitmusPortal.Cluster.Manifest
import LitmusPortal.Cluster.SharedConfiguration
import LitmusPortal.GitOps.LockOrder
import LitmusPortal.Lib.GoText
import LitmusPortal.Lib.Json.Syntax
import LitmusPortal.Lib.Json.Parser
import LitmusPortal.Lib.Json.Lexer
import LitmusPortal.Lib.Json.Text
import LitmusPortal.Lib.Json.Unmarshal
import LitmusPortal.Agent.Event
import LitmusPortal.Workflow.ExecutionData
import LitmusPortal.Workflow.SchemaAgreement
import LitmusPortal.Lib.Base64
import LitmusPortal.Lib.GoQuote
import LitmusPortal.Lib.GraphQL
import LitmusPortal.Agent.Payload
import LitmusPortal.Agent.RoundTrip
import LitmusPortal.Lib.Program
import LitmusPortal.Lib.Documents
import LitmusPortal.Analytics.Store
import LitmusPortal.Analytics.Handler
import LitmusPortal.Analytics.Calls
import LitmusPortal.Analytics.Plans
import LitmusPortal.Analytics.Progress
import LitmusPortal.Analytics.Isolation
import LitmusPortal.Analytics.Foreign
import LitmusPortal.Analytics.Tenants
import LitmusPortal.Analytics.Integrity
import LitmusPortal.Analytics.IntegrityRuns
import LitmusPortal.Authentication.Store
import LitmusPortal.Authentication.Membership
import LitmusPortal.Authentication.Calls
import LitmusPortal.Authentication.SelfService
import LitmusPortal.Authentication.Owners
import LitmusPortal.Authentication.Interleaving
import LitmusPortal.Authentication.Transaction
import LitmusPortal.Authentication.Activation
import LitmusPortal.Lib.Range
import LitmusPortal.Workflow.Loops
import LitmusPortal.Workflow.Frame
import LitmusPortal.Workflow.Weights
import LitmusPortal.Workflow.Metrics
import LitmusPortal.Workflow.MetricBounds
import LitmusPortal.Lib.Chooser
import LitmusPortal.GitOps.Deletion
import LitmusPortal.GitOps.UpdateCall
import LitmusPortal.Authentication.Names
import LitmusPortal.Lib.ObjectCache
import LitmusPortal.Analytics.Prometheus
import LitmusPortal.Analytics.PromCache
import LitmusPortal.Analytics.PromTransparency
import LitmusPortal.Lib.FileTree
import LitmusPortal.MyHubs.Store
import LitmusPortal.MyHubs.Handler
import LitmusPortal.MyHubs.Reach
import LitmusPortal.MyHubs.Invariant
import LitmusPortal.Lib.Script
import LitmusPortal.Upgrade.Store
import LitmusPortal.Upgrade.Manager
import LitmusPortal.Upgrade.AuthMigration
import LitmusPortal.Upgrade.Path
import LitmusPortal.Upgrade.Runs
import LitmusPortal.Agent.Handler
import LitmusPortal.Agent.Updates
import LitmusPortal.Agent.Memory
import LitmusPortal.Agent.Requests
import LitmusPortal.Agent.Panics
import LitmusPortal.Agent.Operations
import LitmusPortal.Agent.Labels
import LitmusPortal.Agent.Watch
import LitmusPortal.Agent.Dispatch
import LitmusPortal.Cluster.Deletion
import LitmusPortal.Analytics.RunStats
import LitmusPortal.Lib.Calendar
import LitmusPortal.Analytics.HeatMap
import LitmusPortal.Analytics.HeatMapCalendar
import LitmusPortal.Analytics.HeatMapValues
import LitmusPortal.Analytics.WorkflowStats
import LitmusPortal.Analytics.StatsPeriods
import LitmusPortal.Lib.Buckets
import LitmusPortal.Analytics.StatsMonths
import LitmusPortal.Analytics.StatsBuckets
import LitmusPortal.EventTracker.Informers
import LitmusPortal.EventTracker.Agreement
import LitmusPortal.EventTracker.Notification
import LitmusPortal.EventTracker.Reconcile
import LitmusPortal.EventTracker.ExactlyOnce
import LitmusPortal.GitOps.SyncRound
import LitmusPortal.GitOps.LockKeys
import LitmusPortal.EventTracker.Conditions
import LitmusPortal.Lib.Numerals
import LitmusPortal.Lib.GoFloat
import LitmusPortal.EventTracker.NumericConditions
import LitmusPortal.Lib.Utf8
import LitmusPortal.Analytics.MetricLabels
import LitmusPortal.Analytics.Alignment
import LitmusPortal.Analytics.UpdateWrites
import LitmusPortal.Analytics.Placement
import LitmusPortal.Lib.Removal
import LitmusPortal.Analytics.Verdicts
import LitmusPortal.Lib.Growth
import LitmusPortal.Analytics.VerdictPasses
import LitmusPortal.Analytics.VerdictRuns
import LitmusPortal.Analytics.PatchedEvents
import LitmusPortal.Analytics.Repatching
import LitmusPortal.Frontend.Reorder
import LitmusPortal.Frontend.ExperimentNames
import LitmusPortal.Lib.BinarySearch
import LitmusPortal.Lib.Rounding
import LitmusPortal.Frontend.MinStep
import LitmusPortal.Frontend.DeleteExperiment
import LitmusPortal.Lib.PathText
import LitmusPortal.MyHubs.Unzip
import LitmusPortal.Lib.Paging
import LitmusPortal.Workflow.Listing
import LitmusPortal.Workflow.Matching
import LitmusPortal.Workflow.Pages
import LitmusPortal.Lib.Placeholders
import LitmusPortal.Lib.GoPrintf
import LitmusPortal.Cluster.Template
import LitmusPortal.MyHubs.Failures
import LitmusPortal.Frontend.QueryLabels
import LitmusPortal.Lib.Traffic
import LitmusPortal.DataStore.Deliveries
import LitmusPortal.DataStore.Broadcasts
import LitmusPortal.DataStore.Routing
import LitmusPortal.Lib.Json.Requoted
import LitmusPortal.Agent.Logs
import LitmusPortal.Lib.Interference
import LitmusPortal.Authentication.Accounts
import LitmusPortal.Authentication.Authority
import LitmusPortal.Authentication.Requests
import LitmusPortal.Authentication.Passwords
import LitmusPortal.Analytics.Views
import LitmusPortal.Analytics.ViewRuns
import LitmusPortal.Frontend.QueryEdits
