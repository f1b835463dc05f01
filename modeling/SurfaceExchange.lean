import SurfaceExchange.Compositor
import SurfaceExchange.Exchange.Audit
import SurfaceExchange.Filed.Service
import SurfaceExchange.Proofs.Filing
import SurfaceExchange.Handle.Uuid
import SurfaceExchange.Proofs.Links
import SurfaceExchange.Proofs.Cascade
import SurfaceExchange.Proofs.Retirement
import SurfaceExchange.Proofs.Coherence
import SurfaceExchange.Proofs.Linking
import SurfaceExchange.Proofs.Tracking
import SurfaceExchange.Proofs.Registries
import SurfaceExchange.Proofs.Sound
import SurfaceExchange.Proofs.Leaving
import SurfaceExchange.Proofs.Fading
import SurfaceExchange.Proofs.Drawing
import SurfaceExchange.Proofs.Changes
import SurfaceExchange.Proofs.Operations
import SurfaceExchange.Proofs.Run
import SurfaceExchange.Proofs.Layout
import SurfaceExchange.Proofs.Accounting
import SurfaceExchange.Proofs.Disappearance
import SurfaceExchange.Proofs.Endings
import SurfaceExchange.Proofs.History
import SurfaceExchange.Proofs.Belonging
import SurfaceExchange.Proofs.Agreement
import SurfaceExchange.Proofs.Naming
import SurfaceExchange.Proofs.Serving
import SurfaceExchange.Proofs.Dispatching
import SurfaceExchange.Proofs.Entitlement
import SurfaceExchange.Proofs.OneParent
import SurfaceExchange.Proofs.Adoption
import SurfaceExchange.Proofs.Declaring
import SurfaceExchange.Proofs.Refusals
import SurfaceExchange.Proofs.Reparenting
import SurfaceExchange.Proofs.Session
import SurfaceExchange.Proofs.Lifetimes
import SurfaceExchange.Proofs.Alike
import SurfaceExchange.Proofs.Generation
import SurfaceExchange.Proofs.Roll
import SurfaceExchange.Proofs.Routes
import SurfaceExchange.Proofs.Interchange
import SurfaceExchange.Proofs.Unmapping
import SurfaceExchange.Proofs.Locality
import SurfaceExchange.Proofs.LastWord
import SurfaceExchange.Proofs.Mooring
import SurfaceExchange.Proofs.Listeners
import SurfaceExchange.Proofs.Shutdown
import SurfaceExchange.Proofs.Limits
import SurfaceExchange.Proofs.Teardown
import SurfaceExchange.Proofs.Parentage
import SurfaceExchange.Proofs.Attendance
import SurfaceExchange.Proofs.Hierarchy
import SurfaceExchange.Proofs.Possession
