import Velnor.Control.PermitLedger.Admission
import Velnor.Scaleset.AcquireRetry
import Velnor.Scaleset.ReleaseRecovery
import Velnor.Runner.CommandFiles
import Velnor.Runner.CommandVisibility
import Velnor.Guest.VsockRoundTrip
import Velnor.Secrets.MaskingSound
import Velnor.Context.JsonReading
import Velnor.Control.EventStream.Cursor
import Velnor.Trust.Hydration
import Velnor.Composite.Guards
import Velnor.Workflow.AggregateExact
import Velnor.Workflow.SelectionExact
import Velnor.Control.Journal.Sends
import Velnor.Control.Journal.Advertised
import Velnor.Control.Journal.Fencing
import Velnor.Control.Journal.Capacity
import Velnor.Control.Journal.Recovery
import Velnor.Control.PermitLedger.QueueAge
import Velnor.Control.PermitLedger.Recovery
import Velnor.Scaleset.TrustGate
import Velnor.Runner.CommandEscape
import Velnor.Evaluation.Setup
import Velnor.Guest.Isolation
import Velnor.Control.EventStream.RetentionLease
