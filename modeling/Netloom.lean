import Netloom.Agent.Approval
import Netloom.Agent.Converged
import Netloom.Agent.FreezeState
import Netloom.Agent.Frozen
import Netloom.Agent.Plan
import Netloom.Agent.PolicyEvents
import Netloom.Agent.Revocation
import Netloom.Agent.Steady
import Netloom.Control.FeedBackoff
import Netloom.Control.Memory
import Netloom.Dataplane.EbpfUnchanged
import Netloom.Dataplane.PressureSummary
import Netloom.Dataplane.Semantics
import Netloom.Dataplane.TcxDefault
import Netloom.Dataplane.TcxIsolation
import Netloom.Ipam.Allocator
import Netloom.Linux.Namespaces
import Netloom.Linux.PolicySelection
import Netloom.Observer.SocketFilter
import Netloom.Ovn.Connector
import Netloom.Ovn.DhcpAgreement
import Netloom.Ovn.HealthRuns
import Netloom.Ovn.NameCodes
import Netloom.Ovn.Retry
import Netloom.Ovn.RouteTwins
import Netloom.Ovn.Transaction
import Netloom.Policy.Coverage
import Netloom.Provider.Quotas
