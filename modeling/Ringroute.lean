import Ringroute.Library.Bytes
import Ringroute.Library.SubmissionRing
import Ringroute.Library.Slab
import Ringroute.Library.Path
import Ringroute.Library.Grouping
import Ringroute.Library.Labels
import Ringroute.Library.Forwarding
import Ringroute.Library.Text
import Ringroute.Icmp
import Ringroute.Net
import Ringroute.Net.Sockaddr
import Ringroute.Net.Cmsg
import Ringroute.Net.Display
import Ringroute.Method
import Ringroute.Method.Icmp
import Ringroute.Method.Udp
import Ringroute.Method.UdpPorts
import Ringroute.Method.Tcp
import Ringroute.Method.TcpReplies
import Ringroute.Trace.UserData
import Ringroute.Trace.RecvMsg
import Ringroute.Trace.Requests
import Ringroute.Trace
import Ringroute.Kernel
import Ringroute.Completion
import Ringroute.Setup
import Ringroute.Run
import Ringroute.Args
import Ringroute.Sizing
import Ringroute.History
import Ringroute.FirstBatch
import Ringroute.Rearm
import Ringroute.Room
import Ringroute.Safety
import Ringroute.PerProbe
import Ringroute.Progress
import Ringroute.Reordering
import Ringroute.Buffers
import Ringroute.Hops
import Ringroute.Report
import Ringroute.HopLine
import Ringroute.Growth
import Ringroute.Attribution
import Ringroute.Answers
import Ringroute.Truncation
import Ringroute.Credit
import Ringroute.CommandLine
import Ringroute.Network
import Ringroute.Route
import Ringroute.Schedule
import Ringroute.Lifecycle
import Ringroute.Noise
import Ringroute.Annotations
import Ringroute.ReportText
import Ringroute.Program
