import Keycard.Session.Lifecycle
import Keycard.Session.Cancellation
import Keycard.Session.Checkout
import Keycard.Session.Claim
import Keycard.Session.Release
import Keycard.Server.Shutdown
import Keycard.Server.Sessions
import Keycard.Session.ForceClose
import Keycard.Server.Drain
import Keycard.Server.Late
import Keycard.Server.Unstopped
import Keycard.Reasoning.Dict
import Keycard.Session.KeptRooms
import Keycard.Session.DestroyAll
import Keycard.Reasoning.Executor
import Keycard.Backends.Docker
import Keycard.Backends.Firecracker
import Keycard.Session.Disposal
import Keycard.Backends.DockerDestroy
import Keycard.Backends.FirecrackerDestroy
import Keycard.Reasoning.FileTree
import Keycard.Backends.Instance
import Keycard.Backends.Sweep
import Keycard.Backends.History
import Keycard.Backends.HistorySteps
import Keycard.Backends.Attribution
import Keycard.Backends.Survivor
import Keycard.Backends.CrashDebris
import Keycard.Session.Turn
import Keycard.Session.Feeder
import Keycard.Session.Attachment
import Keycard.Session.Reports
import Keycard.Session.ExitStatus
import Keycard.Reasoning.Spawned
import Keycard.GuestAgent.Session
import Keycard.GuestAgent.Readers
import Keycard.GuestAgent.ShellExit
import Keycard.GuestAgent.Steps
import Keycard.GuestAgent.Reattach
import Keycard.GuestAgent.Streams
import Keycard.Backends.ControlChannel
import Keycard.GuestAgent.ControlReader
import Keycard.GuestAgent.ControlProtocol
import Keycard.Backends.Vsock
import Keycard.Backends.FirstConnection
import Keycard.Backends.Routing
import Keycard.Backends.RoutingHistory
import Keycard.Reasoning.Landlock
import Keycard.Backends.Confine
import Keycard.Backends.Confined
import Keycard.Config.Load
import Keycard.Config.Loaded
import Keycard.Session.TerminalSize
import Keycard.Session.Resized
import Keycard.Session.DockerKeep
import Keycard.Session.DockerKept
import Keycard.Backends.ExitPolling
import Keycard.Session.TypeAhead
import Keycard.Session.Frame
import Keycard.Session.IdleReaper
import Keycard.Session.Reaped
import Keycard.Session.GuestStatus
import Keycard.Backends.Handshake
import Keycard.Reasoning.Framing
import Keycard.Backends.FcApi
import Keycard.Reasoning.Doubles
import Keycard.Reasoning.Literals
import Keycard.Backends.MachineConfig
import Keycard.Backends.MemorySizes
import Keycard.Backends.DockerLimits
import Keycard.Config.Duration
import Keycard.Server.Durations
import Keycard.Server.HostKey
import Keycard.Reasoning.Part
import Keycard.GuestAgent.ExitReport
import Keycard.GuestAgent.HostEnds
import Keycard.GuestAgent.OneConnection
import Keycard.GuestAgent.SizeLines
import Keycard.GuestAgent.AcceptLoop
import Keycard.EndToEnd.ExitStatus
import Keycard.EndToEnd.Bytes
import Keycard.EndToEnd.Terminal
import Keycard.Reasoning.Custody
import Keycard.Session.FrontDesk
import Keycard.Session.Exclusive
import Keycard.Reasoning.Tally
import Keycard.Session.Accounts
import Keycard.Session.Balance
import Keycard.Backends.JsonBodies
import Keycard.Backends.ApiCalls
import Keycard.EndToEnd.Configuration
import Keycard.EndToEnd.Snapshots
