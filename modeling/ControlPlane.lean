import ControlPlane.Db.Listing
import ControlPlane.Obs.Gauges
import ControlPlane.Reaper.Loop
import ControlPlane.Reaper.Recovery
import ControlPlane.Server.ActivationChain
import ControlPlane.Server.AgentSweep
import ControlPlane.Server.Backlog
import ControlPlane.Server.CancelAnswers
import ControlPlane.Server.ClaimDeadlock
import ControlPlane.Server.ClaimLocks
import ControlPlane.Server.Deduplication
import ControlPlane.Server.ErrorColumns
import ControlPlane.Server.ExecutionTime
import ControlPlane.Server.LeaseInterleaved
import ControlPlane.Server.PolicyOrder
import ControlPlane.Server.RowShape
import ControlPlane.Server.Selection
import ControlPlane.Server.TenantIsolation
import ControlPlane.Server.VersionNumbers
import ControlPlane.Server.WorkerDeath
import ControlPlane.Worker.Cancelled
import ControlPlane.Worker.Counters
import ControlPlane.Worker.Heartbeats
import ControlPlane.Worker.RenewalFailure
import ControlPlane.Worker.ToolSwitch
import ControlPlane.Worker.TraceCarrier
