import RouteSync.Account.Json
import RouteSync.Address.Count
import RouteSync.Network
import RouteSync.Settings.Load
import RouteSync.Proofs.Exchange
import RouteSync.Proofs.Node.Coherence
import RouteSync.Proofs.Node.Outgoing
import RouteSync.Proofs.Recovery
import RouteSync.Proofs.Address
import RouteSync.Proofs.Segments
import RouteSync.Proofs.Grammar
import RouteSync.Proofs.Lookup
import RouteSync.Proofs.Node.OwnRoutes
import RouteSync.Proofs.Node.OwnAddresses
import RouteSync.Proofs.Succession
import RouteSync.Proofs.Reports
import RouteSync.Proofs.Node.Admission
import RouteSync.Proofs.Node.Lineage
import RouteSync.Proofs.Node.Exports
import RouteSync.Proofs.Node.AddressSpace
import RouteSync.Proofs.Node.Reconfiguration
import RouteSync.Proofs.Node.Withdrawal
import RouteSync.Proofs.Json
import RouteSync.Proofs.Message
import RouteSync.Proofs.Mesh
import RouteSync.Proofs.Network
import RouteSync.Proofs.Provenance
import RouteSync.Proofs.RoundTrip
import RouteSync.Proofs.Node.Learned
import RouteSync.Proofs.Node.Retry
import RouteSync.Proofs.Node.Broadcast
import RouteSync.Proofs.Node.Refusal
import RouteSync.Proofs.Node.Scope
import RouteSync.Proofs.Node.Interleaving
import RouteSync.Proofs.Node.Knowledge
import RouteSync.Proofs.Node.Expiry
import RouteSync.Proofs.Cascade
import RouteSync.Proofs.EpochMap
import RouteSync.Proofs.Node.Silence
import RouteSync.Proofs.Node.Children
import RouteSync.Proofs.Node.Precedence
import RouteSync.Proofs.Node.Reachability
import RouteSync.Proofs.Node.Subscriptions
import RouteSync.Proofs.Node.Listeners
import RouteSync.Proofs.Node.Stragglers
