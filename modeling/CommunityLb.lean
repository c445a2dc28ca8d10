import CommunityLb.Lib.Machine
import CommunityLb.Lib.Keyed
import CommunityLb.Lib.Digits
import CommunityLb.Lib.JsNumber
import CommunityLb.Lib.Sorting
import CommunityLb.Lib.PrefixFree
import CommunityLb.Chain.Records
import CommunityLb.Chain.Writer
import CommunityLb.Chain.Store
import CommunityLb.Chain.Send
import CommunityLb.Chain.Json
import CommunityLb.Chain.Codec
import CommunityLb.Chain.Encoded
import CommunityLb.Chain.RoundTrip
import CommunityLb.Config
import CommunityLb.Pool
import CommunityLb.Health.Entry
import CommunityLb.Health.Rotation
import CommunityLb.Health.Sweep
import CommunityLb.Stats.Ring
import CommunityLb.Stats.Hours
import CommunityLb.Integrity.Judge
import CommunityLb.Integrity.Entities
import CommunityLb.Integrity.Rounds
import CommunityLb.Integrity.Honest
import CommunityLb.Integrity.Overlap
import CommunityLb.Marketplace.Agent
import CommunityLb.Marketplace.Task
import CommunityLb.Marketplace.Account
import CommunityLb.Marketplace.Monotone
import CommunityLb.Marketplace.Finality
import CommunityLb.Marketplace.Led
import CommunityLb.Marketplace.Billing
import CommunityLb.Marketplace.Paid
import CommunityLb.Marketplace.Reading
import CommunityLb.Marketplace.OnChain
import CommunityLb.Marketplace.Ground
import CommunityLb.Marketplace.Projection
import CommunityLb.Settle.Records
import CommunityLb.Settle.Ledger
import CommunityLb.Settle.Pay
import CommunityLb.Settle.Runs
import CommunityLb.Settle.Afford
import CommunityLb.Settle.Exact
import CommunityLb.Settle.Pages
import CommunityLb.Settle.Crossing
import CommunityLb.Marketplace.Lives
import CommunityLb.Marketplace.Memory
import CommunityLb.Marketplace.Expiry
import CommunityLb.Marketplace.Refresh
import CommunityLb.Marketplace.Boundary
import CommunityLb.Marketplace.Landing
import CommunityLb.Marketplace.Starts
import CommunityLb.Marketplace.Listing
import CommunityLb.Marketplace.Providers
import CommunityLb.Marketplace.Reconcile
import CommunityLb.Stats.Report
import CommunityLb.Stats.Recorded
import CommunityLb.Health.Backoff
import CommunityLb.Proxy.Selection
import CommunityLb.Proxy.Failover
import CommunityLb.Proxy.Accounting
import CommunityLb.Proxy.Distinct
import CommunityLb.Marketplace.Greedy
import CommunityLb.Integrity.Record
import CommunityLb.Integrity.Alone
import CommunityLb.Chain.Wire
import CommunityLb.Chain.Sidecar
import CommunityLb.Chain.Delivered
import CommunityLb.Chain.Query
import CommunityLb.Marketplace.Extended
import CommunityLb.Marketplace.Effect
import CommunityLb.Marketplace.Flushing
import CommunityLb.Marketplace.Quiet
import CommunityLb.Marketplace.Remaining
import CommunityLb.Marketplace.Calm
import CommunityLb.Marketplace.Opened
import CommunityLb.Marketplace.Holding
import CommunityLb.Marketplace.Sealing
import CommunityLb.Marketplace.Reconciling
import CommunityLb.Marketplace.Answers
import CommunityLb.Marketplace.Simulation
import CommunityLb.Marketplace.Refines
import CommunityLb.Marketplace.Afforded
import CommunityLb.Marketplace.Lasting
import CommunityLb.Marketplace.Truthful
import CommunityLb.Marketplace.Accounts
import CommunityLb.Marketplace.Queries
import CommunityLb.Proxy.Relay
import CommunityLb.Marketplace.Tunnels
