import OidFed.Js.Split
import OidFed.Policy.NoLoosening
import OidFed.Policy.OrderFree
import OidFed.Policy.Idempotent
import OidFed.Policy.Scope
import OidFed.Policy.Names
import OidFed.Policy.Sameness
import OidFed.Chain.PathConstraints
import OidFed.Chain.DomainNames
import OidFed.Chain.EntityTypes
import OidFed.Chain.TrustMarks
import OidFed.Chain.DuplicateScan
import OidFed.Chain.PayloadText
import OidFed.Chain.Staged
import OidFed.Chain.Shared
import OidFed.Replay.ClientAuth
import OidFed.Replay.Wallet
import OidFed.Storage.Adapter
import OidFed.Storage.TrustMarkIssuance
import OidFed.Storage.Lifecycle
import OidFed.Storage.Comparison
import OidFed.Storage.Listing
import OidFed.Storage.MarkQueries
import OidFed.Collection.LanguageTags
import OidFed.Collection.Requests
import OidFed.Collection.Service
import OidFed.Collection.StoreRuns
import OidFed.Collection.Snapshots
import OidFed.Cache.Fetch
import OidFed.Keys.History
import OidFed.Keys.Signing
import OidFed.Leaf.Configuration
import OidFed.Authority.Resolve
import OidFed.Authority.Router
import OidFed.Authority.ExtendedClaims
import OidFed.Resolve.AddressGrammar
import OidFed.Resolve.Ipv6
import OidFed.Client.Fetch
import OidFed.Client.FederationApi
import OidFed.Authority.HistoricalKeys
import OidFed.Authority.SubordinateEvents
import OidFed.Authority.TrustMarkStatus
import OidFed.Authority.TrustMarkList
import OidFed.Resolve.Untrusted
import OidFed.Resolve.Federation
import OidFed.Resolve.LimiterRuns
import OidFed.Statements.Acceptance
import OidFed.Chain.Honest
import OidFed.Authority.Statements
import OidFed.Wallet.ClaimPaths
import OidFed.Wallet.Requests
import OidFed.Registration.Lifetimes
import OidFed.Registration.Clients
import OidFed.Registration.Automatic
