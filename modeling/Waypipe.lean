import Waypipe.C.Interop
import Waypipe.C.MergeCoverage
import Waypipe.ChannelResume
import Waypipe.DamagedSegments
import Waypipe.DiffTrimming
import Waypipe.ExactlyOnce
import Waypipe.LoopEnd
import Waypipe.MalformedDiffs
import Waypipe.ProtocolPayload
import Waypipe.ReadFraming
import Waypipe.ReleasePoints
import Waypipe.SocketOutput
import Waypipe.SshArguments
import Waypipe.TexelAlignment
import Waypipe.Tracking.Announcements
import Waypipe.Tracking.ClockOffsets
import Waypipe.Tracking.Feedback
import Waypipe.Tracking.Sessions
import Waypipe.Tracking.ShmBounds
import Waypipe.Tracking.TwoHops
import Waypipe.Wayland.Arguments
