import Coordination.Config.Load
import Coordination.Metrics
import Coordination.Notification
import Coordination.Queue.Script
import Coordination.Proofs.Client.Fate
import Coordination.Proofs.Client.Lifecycle
import Coordination.Proofs.Client.Transparency
import Coordination.Proofs.Dispatch.Removal
import Coordination.Proofs.Dispatch.Routing
import Coordination.Proofs.Memory.Course
import Coordination.Proofs.Shutdown.Loss
import Coordination.World.Run
import Coordination.Proofs.Memory.Children
import Coordination.Proofs.Memory.Census
import Coordination.Proofs.Memory.Firing
import Coordination.Proofs.Client.Isolation
import Coordination.Proofs.Dispatch.Provenance
import Coordination.Proofs.Memory.Integrity
import Coordination.Proofs.Memory.Presence
import Coordination.Proofs.Memory.Listing
import Coordination.Proofs.Queue.Readiness
import Coordination.Proofs.Memory.Footprint
import Coordination.Proofs.Client.Enrollment
import Coordination.Proofs.Client.Modes
import Coordination.Proofs.Memory.History
import Coordination.Proofs.Memory.Bookkeeping
import Coordination.Proofs.Memory.Incarnation
import Coordination.Proofs.Memory.Numbering
import Coordination.Proofs.Queue.Handover
import Coordination.Proofs.Queue.Announcement
import Coordination.Proofs.Connection.Rounds
import Coordination.Proofs.Dispatch.Accounting
import Coordination.Proofs.Paths.Grammar
import Coordination.Proofs.Paths.Crossing
import Coordination.Proofs.Client.Timeouts
import Coordination.Proofs.Config.Repetition
