import RouteDispatch.Scenario.CallStep
import RouteDispatch.Scenario.Observation
import RouteDispatch.Proofs.Router.Upgrade
import RouteDispatch.Proofs.Session.ShortCircuit
import RouteDispatch.Proofs.Session.Losses
import RouteDispatch.Proofs.Session.Agreement
import RouteDispatch.Proofs.Session.Stability
import RouteDispatch.Proofs.Session.Delivery
import RouteDispatch.Proofs.Session.Convergence
import RouteDispatch.Proofs.Session.Evaluation
import RouteDispatch.Proofs.Session.Interleaving
import RouteDispatch.Proofs.Session.Folding
import RouteDispatch.Proofs.Route.Linkage
import RouteDispatch.Proofs.Route.Equivalence
import RouteDispatch.Proofs.Route.Registration
import RouteDispatch.Proofs.Route.Duplication
import RouteDispatch.Proofs.Route.Reordering
import RouteDispatch.Proofs.Binding.TypedCalls
import RouteDispatch.Proofs.Binding.Exposure
import RouteDispatch.Proofs.Binding.Faults
import RouteDispatch.Proofs.Binding.Filling
import RouteDispatch.Proofs.Session.Itinerary
import RouteDispatch.Proofs.Session.Tracking
import RouteDispatch.Proofs.Session.Journey
import RouteDispatch.Proofs.Session.Ordering
import RouteDispatch.Proofs.Session.Reachability
import RouteDispatch.Proofs.Session.Preparation
import RouteDispatch.Proofs.Session.Escaping
import RouteDispatch.Proofs.Session.Isolation
import RouteDispatch.Proofs.Route.Chronology
import RouteDispatch.Proofs.Route.Rendering
import RouteDispatch.Proofs.Param.Acceptance
import RouteDispatch.Proofs.Session.Chaining
import RouteDispatch.Proofs.Binding.Scalars
import RouteDispatch.Proofs.Route.Declining
import RouteDispatch.Proofs.Route.Prepending
