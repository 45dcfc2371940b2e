import Lantun.Net.TcpFidelity
import Lantun.Net.UdpFidelity
import Lantun.Net.Join
import Lantun.Machine.Progress
import Lantun.Common
import Lantun.Client.IsRunning
import Lantun.Host.Connection
import Lantun.Host.Tunnel
import Lantun.Host.Invariant
import Lantun.Host.Registry
import Lantun.Host.Setup
import Lantun.Host.Clearance
import Lantun.Host.Independence
import Lantun.Pair.ServerFirst
import Lantun.Pair.Parallel
import Lantun.Cli.Startable
import Lantun.Cli.Enabled
import Lantun.Host.Sessions
import Lantun.Host.Shutdown
import Lantun.Client.Stopping
import Lantun.Net.Ending
import Lantun.Client.Occupancy
import Lantun.Client.Ownership
import Lantun.Client.HeadOfLine
import Lantun.Client.Idle
import Lantun.Pair.Agreement
import Lantun.Cli.Undo
import Lantun.Net.Parking
import Lantun.EndToEnd.Refinement
import Lantun.EndToEnd.Delivery
import Lantun.Net.Draining
import Lantun.Net.UdpBytes
import Lantun.Pair.Request
import Lantun.Cli.RunAll
import Lantun.Cli.Handover
import Lantun.Cli.Batches
