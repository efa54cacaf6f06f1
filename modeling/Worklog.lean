import Worklog.Proofs.Channel.Alike
import Worklog.Proofs.Channel.Apart
import Worklog.Proofs.Channel.Failing
import Worklog.Proofs.Channel.History
import Worklog.Proofs.Channel.Line
import Worklog.Proofs.Channel.Pinned
import Worklog.Proofs.Channel.Replay
import Worklog.Proofs.Channel.Routing
import Worklog.Proofs.Channel.Sending
import Worklog.Proofs.Channel.Showing
import Worklog.Proofs.Channel.Trust
import Worklog.Proofs.Context.Isolation
import Worklog.Proofs.Context.Nesting
import Worklog.Proofs.Context.Parents
import Worklog.Proofs.Lifecycle.FailingStops
import Worklog.Proofs.Lifecycle.Numbers
import Worklog.Proofs.Lifecycle.Run
import Worklog.Proofs.Plain.Uncolored
import Worklog.Proofs.Plain.Unescaped
import Worklog.Proofs.Reading.Grammar
import Worklog.Proofs.Reading.Listing
import Worklog.Proofs.Reading.Payload
import Worklog.Proofs.Roundtrip.Report
import Worklog.Script.Run
