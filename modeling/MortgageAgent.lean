import MortgageAgent.Lib.Run
import MortgageAgent.Lib.Table
import MortgageAgent.Lib.Json
import MortgageAgent.Lib.JsonText
import MortgageAgent.Platform
import MortgageAgent.Budget.Ledger
import MortgageAgent.Budget.Service
import MortgageAgent.Budget.System
import MortgageAgent.Budget.Effect
import MortgageAgent.Budget.Accounting
import MortgageAgent.Budget.Lifecycle
import MortgageAgent.Provider.Types
import MortgageAgent.Provider.Finding
import MortgageAgent.Provider.Authorization
import MortgageAgent.Provider.Intent
import MortgageAgent.Provider.Disposition
import MortgageAgent.Provider.Dispatch
import MortgageAgent.Provider.System
import MortgageAgent.Provider.Lifecycle
import MortgageAgent.Provider.Protocol
import MortgageAgent.Provider.Simulation
import MortgageAgent.Provider.Submission
import MortgageAgent.Provider.Access
import MortgageAgent.Policy.Rule
import MortgageAgent.Policy.Resolver
import MortgageAgent.Policy.Release
import MortgageAgent.Policy.Evaluation
import MortgageAgent.Policy.System
import MortgageAgent.Policy.ReleaseSafety
import MortgageAgent.Policy.Validity
import MortgageAgent.Policy.Binding
import MortgageAgent.Policy.Reuse
import MortgageAgent.Policy.Recovery
import MortgageAgent.Provider.Gates
import MortgageAgent.Provider.Revocation
import MortgageAgent.Provider.ReviewRows
import MortgageAgent.Provider.Payloads
import MortgageAgent.Provider.Fetch
import MortgageAgent.Provider.FetchInv
import MortgageAgent.Provider.Coverage
import MortgageAgent.Provider.Erasure
import MortgageAgent.Provider.HoldRace
import MortgageAgent.Provider.ResolveRace
import MortgageAgent.Provider.FieldScope
import MortgageAgent.Lib.JsonParse
import MortgageAgent.Lib.Bytes
import MortgageAgent.Lib.JsonObject
import MortgageAgent.Canonical
import MortgageAgent.Provider.Prepare
import MortgageAgent.Provider.Cipher
import MortgageAgent.Provider.Promotion
import MortgageAgent.Provider.ActivationRace
import MortgageAgent.Lib.Process
import MortgageAgent.Lib.Settle
import MortgageAgent.Workflow.Case
import MortgageAgent.Workflow.Runtime
import MortgageAgent.Workflow.Activities
import MortgageAgent.Workflow.Evaluation
import MortgageAgent.Workflow.OneCondition
import MortgageAgent.Workflow.Readiness
import MortgageAgent.Workflow.Resolution
import MortgageAgent.Workflow.CancelRace
import MortgageAgent.Workflow.FinalStatus
import MortgageAgent.Workflow.Signals
import MortgageAgent.Policy.Impact
import MortgageAgent.Workflow.Decision
import MortgageAgent.Workflow.StaleWrite
import MortgageAgent.Budget.Growth
import MortgageAgent.Lib.Rely
import MortgageAgent.Workflow.Deadline
import MortgageAgent.Lib.Noted
import MortgageAgent.Workflow.Quarantine
import MortgageAgent.Workflow.Planner
import MortgageAgent.Policy.DualControl
import MortgageAgent.Policy.Research
import MortgageAgent.Policy.ResearchLease
import MortgageAgent.Webhook.Endpoint
import MortgageAgent.Webhook.EndpointRace
import MortgageAgent.Webhook.Dispatch
import MortgageAgent.Webhook.FanOut
import MortgageAgent.Webhook.Attempts
import MortgageAgent.Webhook.Sequential
import MortgageAgent.Webhook.Destination
import MortgageAgent.Webhook.UrlGuard
import MortgageAgent.Webhook.Rebinding
import MortgageAgent.Outbox
import MortgageAgent.Cases.CreateCase
import MortgageAgent.Cases.CreateOnce
import MortgageAgent.Communications.Classifier
import MortgageAgent.Communications.Messages
import MortgageAgent.Communications.Approval
import MortgageAgent.Communications.SentOnce
import MortgageAgent.Auth.Request
import MortgageAgent.Auth.SessionCipher
import MortgageAgent.Auth.Session
import MortgageAgent.Auth.LogoutFinal
import MortgageAgent.Auth.Sandbox
import MortgageAgent.Auth.SandboxTenants
import MortgageAgent.Lib.Exclusive
import MortgageAgent.Auth.Identity
import MortgageAgent.Auth.Provisioning
import MortgageAgent.Auth.ProvisionedOnce
import MortgageAgent.Lib.Reach
import MortgageAgent.Lib.Relational
import MortgageAgent.Database.Schema
import MortgageAgent.Database.Purge
import MortgageAgent.Database.PurgeComplete
import MortgageAgent.Policy.SourceMonitor
import MortgageAgent.Policy.SourceFresh
import MortgageAgent.Provider.Provenance
import MortgageAgent.Provider.ProvenanceBound
import MortgageAgent.Lib.Memo
import MortgageAgent.RemoteHandle
import MortgageAgent.Policy.RuleForm
import MortgageAgent.Policy.Grounds
import MortgageAgent.Lib.Cut
import MortgageAgent.Policy.Overlap
import MortgageAgent.Workflow.MatchedRules
import MortgageAgent.Budget.Int4
import MortgageAgent.Budget.RawErrors
import MortgageAgent.Budget.ClaimErrors
import MortgageAgent.Budget.CommitErrors
import MortgageAgent.Budget.Window
import MortgageAgent.Webhook.RateWindow
import MortgageAgent.Lib.IpText
import MortgageAgent.Webhook.GuardSound
import MortgageAgent.Webhook.Signer
import MortgageAgent.Lib.Keyset
import MortgageAgent.Database.Listing
import MortgageAgent.AuditExport
import MortgageAgent.Cases.CaseCursor
import MortgageAgent.Cases.CaseQuery
import MortgageAgent.Provider.PlaidIncome
import MortgageAgent.RulesUnderwriter
import MortgageAgent.ModelUnderwriter
import MortgageAgent.LoanEvaluation
import MortgageAgent.Auth.SessionRing
import MortgageAgent.Auth.ReturnPath
import MortgageAgent.Auth.SandboxSweep
import MortgageAgent.Communications.Rendering
import MortgageAgent.Policy.Passages
import MortgageAgent.Policy.ResearchQueue
import MortgageAgent.Policy.ResearchOnce
import MortgageAgent.Lib.Ascent
import MortgageAgent.Policy.Ancestry
import MortgageAgent.Lib.Journal
import MortgageAgent.Workflow.Fleet
import MortgageAgent.Workflow.EventLog
import MortgageAgent.Lib.Projection
import MortgageAgent.Database.TenantContext
import MortgageAgent.Database.Ownership
import MortgageAgent.Database.TenantIsolation
import MortgageAgent.Database.FailClosed
import MortgageAgent.Auth.LoginSession
import MortgageAgent.Auth.HttpCookie
import MortgageAgent.Workflow.Settles
import MortgageAgent.Auth.ApiClients
import MortgageAgent.Auth.KeyRegistry
import MortgageAgent.Lib.Ranking
import MortgageAgent.Policy.Retrieval
import MortgageAgent.Policy.Citations
