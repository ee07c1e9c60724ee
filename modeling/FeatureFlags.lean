import FeatureFlags.Channel.Choice
import FeatureFlags.Channel.Memory
import FeatureFlags.Channel.Script
import FeatureFlags.Config.Load
import FeatureFlags.Proofs.Backoff.ZeroBase
import FeatureFlags.Proofs.Binary64.DecimalText
import FeatureFlags.Proofs.Bus.Delivery
import FeatureFlags.Proofs.Bus.Numbers
import FeatureFlags.Proofs.Cache.Recency
import FeatureFlags.Proofs.Channel.Listening
import FeatureFlags.Proofs.Channel.Polling
import FeatureFlags.Proofs.Channel.Reader
import FeatureFlags.Proofs.Channel.Rereading
import FeatureFlags.Proofs.Channel.Sessions
import FeatureFlags.Proofs.Config.Variables
import FeatureFlags.Proofs.Context.Fingerprint
import FeatureFlags.Proofs.Event
import FeatureFlags.Proofs.Flag.Acceptance
import FeatureFlags.Proofs.Flag.Admission
import FeatureFlags.Proofs.Flag.Agreement
import FeatureFlags.Proofs.Flag.Decoders
import FeatureFlags.Proofs.Flag.Differences
import FeatureFlags.Proofs.Flag.Form
import FeatureFlags.Proofs.Flag.WellFormed
import FeatureFlags.Proofs.Flag.Writing
import FeatureFlags.Proofs.Json.Drafts
import FeatureFlags.Proofs.Json.Records
import FeatureFlags.Proofs.Json.Rendering
import FeatureFlags.Proofs.Resolver.Announcements
import FeatureFlags.Proofs.Resolver.Following
import FeatureFlags.Proofs.Resolver.Health
import FeatureFlags.Proofs.Resolver.Interleaving
import FeatureFlags.Proofs.Resolver.Life
import FeatureFlags.Proofs.Resolver.Redelivery
import FeatureFlags.Proofs.Resolver.Rejection
import FeatureFlags.Proofs.Resolver.Shape
import FeatureFlags.Proofs.Resolver.Snapshots
import FeatureFlags.Proofs.Service.Chronicle
import FeatureFlags.Proofs.Service.Finality
import FeatureFlags.Proofs.Service.Moves
import FeatureFlags.Proofs.Service.Waiting
import FeatureFlags.Proofs.Sync.Budget
import FeatureFlags.Proofs.Sync.Moments
import FeatureFlags.Proofs.Sync.Reports
import FeatureFlags.Proofs.Sync.Run
import FeatureFlags.Proofs.Sync.Scripts
import FeatureFlags.Proofs.Targeting.Dependence
import FeatureFlags.Proofs.Targeting.Form
import FeatureFlags.Proofs.Targeting.Operators
import FeatureFlags.Proofs.Targeting.Rollout
import FeatureFlags.Proofs.Targeting.Shift
import FeatureFlags.Provider
import FeatureFlags.Resolver.Shown
