import DavGateway.Bridge.Trial
import DavGateway.Main
import DavGateway.Proofs.Bridge.Requests
import DavGateway.Proofs.Bridge.Traffic
import DavGateway.Proofs.Gateway.Faithful
import DavGateway.Store.Rehearsal
import DavGateway.Proofs.Http.Changes
import DavGateway.Proofs.Gateway.Visits
import DavGateway.Proofs.Gateway.Permissions
import DavGateway.Proofs.Bridge.Handover
import DavGateway.Proofs.Store.Timeless
import DavGateway.Proofs.Transfer.Alike
import DavGateway.Proofs.Store.Replies
import DavGateway.Proofs.Schedulings
import DavGateway.Proofs.Gateway.Consistency
import DavGateway.Proofs.Transfer.Rules
import DavGateway.Proofs.Http.Stages
import DavGateway.Proofs.Gateway.Hosting
import DavGateway.Proofs.Gateway.Lasting
import DavGateway.Proofs.Transfer.Meetings
import DavGateway.Proofs.Gateway.Races
import DavGateway.Proofs.Percent
import DavGateway.Proofs.Mount.Table
import DavGateway.Proofs.Http.References
import DavGateway.Proofs.Store.Backends
import DavGateway.Proofs.Gateway.Departures
import DavGateway.Proofs.Http.Setbacks
import DavGateway.Proofs.Gateway.Routing
import DavGateway.Proofs.Gateway.NewPools
import DavGateway.Proofs.Gateway.Connections
import DavGateway.Proofs.Gateway.Outcomes
import DavGateway.Proofs.Gateway.Sharing
import DavGateway.Proofs.Mount.Twins
import DavGateway.Proofs.Mount.Destinations
import DavGateway.Proofs.Transfer.Remains
import DavGateway.Proofs.Transfer.Reads
import DavGateway.Proofs.Transfer.Walks
import DavGateway.Proofs.Http.Documents
import DavGateway.Proofs.Gateway.Conditions
import DavGateway.Proofs.Store.Extents
import DavGateway.Proofs.Percent.Grammar
import DavGateway.Proofs.Mount.Renderings
import DavGateway.Proofs.Bridge.Handles
import DavGateway.Proofs.Store.ListedNames
