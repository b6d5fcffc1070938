import MizanConnect.Lib.Aead
import MizanConnect.Lib.Best
import MizanConnect.Lib.Calendar
import MizanConnect.Lib.Ddl
import MizanConnect.Lib.FormUrlencoded
import MizanConnect.Lib.Gcra
import MizanConnect.Lib.Lines
import MizanConnect.Lib.MultiMap
import MizanConnect.Middleware
import MizanConnect.Lib.PrefixCode
import MizanConnect.Lib.Program
import MizanConnect.Lib.Progress
import MizanConnect.Lib.Rounding
import MizanConnect.Lib.Run
import MizanConnect.Lib.SlidingWindow
import MizanConnect.Lib.Table
import MizanConnect.Lib.Traced
import MizanConnect.Lib.Url
import MizanConnect.Lib.Utf8
import MizanConnect.Error
import MizanConnect.Types
import MizanConnect.Config
import MizanConnect.SerdeJson
import MizanConnect.Statement
import MizanConnect.Server
import MizanConnect.Auth.Jwks
import MizanConnect.Auth.JwksTasks
import MizanConnect.Auth.SupabaseJwt
import MizanConnect.Auth.Upsert
import MizanConnect.Auth.Verification
import MizanConnect.Health
import MizanConnect.Startup
import MizanConnect.Users.Handlers
import MizanConnect.Users.Repository
import MizanConnect.Teams.Accounts
import MizanConnect.Teams.Handlers
import MizanConnect.Teams.Invites
import MizanConnect.Teams.Migration
import MizanConnect.Teams.Repository
import MizanConnect.Teams.Roster
import MizanConnect.Billing.AiProxy
import MizanConnect.Billing.Checkout
import MizanConnect.Billing.Credits
import MizanConnect.Billing.Entitlements
import MizanConnect.Billing.Inbox
import MizanConnect.Billing.Pool
import MizanConnect.Billing.Prices
import MizanConnect.Billing.Reports
import MizanConnect.Billing.ReportsCron
import MizanConnect.Billing.Repository
import MizanConnect.Billing.Streamer
import MizanConnect.Billing.StripeClient
import MizanConnect.Billing.System
import MizanConnect.Billing.Webhook
import MizanConnect.Snaptrade.Callback
import MizanConnect.Snaptrade.Client
import MizanConnect.Snaptrade.Encryption
import MizanConnect.Snaptrade.Handlers
import MizanConnect.Snaptrade.RateLimit
import MizanConnect.Snaptrade.Repository
import MizanConnect.Snaptrade.SignedRequest
import MizanConnect.Snaptrade.Signing
import MizanConnect.Snaptrade.StateToken
import MizanConnect.Proofs.Auth.JwksSnapshot
import MizanConnect.Proofs.Auth.Readiness
import MizanConnect.Proofs.Auth.VerifyToken
import MizanConnect.Proofs.Billing.Backlog
import MizanConnect.Proofs.Billing.CalendarWindows
import MizanConnect.Proofs.Billing.CreditCap
import MizanConnect.Proofs.Billing.CreditLedger
import MizanConnect.Proofs.Billing.CreditPrice
import MizanConnect.Proofs.Billing.CreditReset
import MizanConnect.Proofs.Billing.DeliveryOrder
import MizanConnect.Proofs.Billing.Inbox
import MizanConnect.Proofs.Billing.LedgerProvenance
import MizanConnect.Proofs.Billing.PaidAccess
import MizanConnect.Proofs.Billing.MonthlyReports
import MizanConnect.Proofs.Billing.NoDeadlock
import MizanConnect.Proofs.Billing.NoWrap
import MizanConnect.Proofs.Billing.OneCustomer
import MizanConnect.Proofs.Billing.PlansFrozen
import MizanConnect.Proofs.Billing.PoolStarvation
import MizanConnect.Proofs.Billing.Serial
import MizanConnect.Proofs.Billing.SnapshotUpsert
import MizanConnect.Proofs.Billing.SseFraming
import MizanConnect.Proofs.Billing.Statements
import MizanConnect.Proofs.Billing.StreamCharge
import MizanConnect.Proofs.Billing.StreamPanic
import MizanConnect.Proofs.Billing.TierAgreement
import MizanConnect.Proofs.Billing.WebhookAtomic
import MizanConnect.Proofs.Billing.WebhookSignature
import MizanConnect.Proofs.Server.Cors
import MizanConnect.Proofs.Server.PerIpLimit
import MizanConnect.Proofs.Server.RateBound
import MizanConnect.Proofs.Server.RequestId
import MizanConnect.Proofs.Server.SecurityHeaders
import MizanConnect.Proofs.Server.Shutdown
import MizanConnect.Proofs.Server.Configuration
import MizanConnect.Proofs.Server.Startup
import MizanConnect.Proofs.Snaptrade.NewestAuthorization
import MizanConnect.Proofs.Snaptrade.AuditTrail
import MizanConnect.Proofs.Snaptrade.CallbackReplay
import MizanConnect.Proofs.Snaptrade.CanonicalRequest
import MizanConnect.Proofs.Snaptrade.Causes
import MizanConnect.Proofs.Snaptrade.DisconnectRace
import MizanConnect.Proofs.Snaptrade.Disconnects
import MizanConnect.Proofs.Snaptrade.Isolation
import MizanConnect.Proofs.Snaptrade.Lifecycle
import MizanConnect.Proofs.Snaptrade.ListDelete
import MizanConnect.Proofs.Snaptrade.LoginLimiter
import MizanConnect.Proofs.Snaptrade.Operations
import MizanConnect.Proofs.Snaptrade.QueryString
import MizanConnect.Proofs.Snaptrade.RetryAfter
import MizanConnect.Proofs.Snaptrade.SecretBlob
import MizanConnect.Proofs.Snaptrade.SecretOrigin
import MizanConnect.Proofs.Snaptrade.SignedUrl
import MizanConnect.Proofs.Snaptrade.StateBinding
import MizanConnect.Proofs.Snaptrade.SuccessPage
import MizanConnect.Proofs.Snaptrade.Timeline
import MizanConnect.Proofs.Teams.Escalation
import MizanConnect.Proofs.Teams.Listings
import MizanConnect.Proofs.Teams.Membership
import MizanConnect.Proofs.Teams.Migration
import MizanConnect.Proofs.Teams.Ownership
import MizanConnect.Proofs.Teams.References
import MizanConnect.Proofs.Teams.SingleUse
import MizanConnect.Proofs.Teams.TeamIdentity
import MizanConnect.Proofs.Teams.Turns
import MizanConnect.Proofs.Users.AccountIdentity
import MizanConnect.Proofs.Users.Rename
