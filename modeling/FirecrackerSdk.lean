import FirecrackerSdk.Lib.Prog
import FirecrackerSdk.Lib.Watched
import FirecrackerSdk.Lib.Text
import FirecrackerSdk.Lib.Lifo
import FirecrackerSdk.Lib.Plan
import FirecrackerSdk.Lib.Guarded
import FirecrackerSdk.Lib.Partial
import FirecrackerSdk.Lib.Retry
import FirecrackerSdk.Lib.Chunked
import FirecrackerSdk.Lib.Http1
import FirecrackerSdk.Lib.Lexical
import FirecrackerSdk.Lib.SortedMap
import FirecrackerSdk.Lib.Decode
import FirecrackerSdk.Lib.Naming
import FirecrackerSdk.Lib.Hardlink
import FirecrackerSdk.Lib.Utf8
import FirecrackerSdk.Lib.Record
import FirecrackerSdk.Lib.Ascii
import FirecrackerSdk.Lib.Timed
import FirecrackerSdk.Lib.Pipe
import FirecrackerSdk.Lib.Keyed
import FirecrackerSdk.Lib.Polling
import FirecrackerSdk.Error
import FirecrackerSdk.Transport
import FirecrackerSdk.Framing
import FirecrackerSdk.Bodyless
import FirecrackerSdk.Buffers
import FirecrackerSdk.Models
import FirecrackerSdk.KernelArgs
import FirecrackerSdk.BootLine
import FirecrackerSdk.Cni
import FirecrackerSdk.VmConf
import FirecrackerSdk.Network
import FirecrackerSdk.Validation
import FirecrackerSdk.BootParam
import FirecrackerSdk.Config
import FirecrackerSdk.Plugins
import FirecrackerSdk.PluginNotes
import FirecrackerSdk.PluginChain
import FirecrackerSdk.PluginUndo
import FirecrackerSdk.PluginPipes
import FirecrackerSdk.Deserialize
import FirecrackerSdk.Serde
import FirecrackerSdk.Wire
import FirecrackerSdk.Replies
import FirecrackerSdk.Client
import FirecrackerSdk.Balloon
import FirecrackerSdk.Session
import FirecrackerSdk.Timeouts
import FirecrackerSdk.Alive
import FirecrackerSdk.Netns
import FirecrackerSdk.FileTree
import FirecrackerSdk.NetnsUndo
import FirecrackerSdk.Capture
import FirecrackerSdk.CaptureEnd
import FirecrackerSdk.Vsock.Dial
import FirecrackerSdk.Vsock.Retrying
import FirecrackerSdk.Handlers
import FirecrackerSdk.Machine.World
import FirecrackerSdk.Machine.Lifecycle
import FirecrackerSdk.Machine.Configure
import FirecrackerSdk.Machine.Online
import FirecrackerSdk.Machine.KernelLine
import FirecrackerSdk.Machine.Standard
import FirecrackerSdk.Machine.Pipelines
import FirecrackerSdk.Machine.HandlerEdits
import FirecrackerSdk.Machine.Ledger
import FirecrackerSdk.Machine.Passive
import FirecrackerSdk.Machine.Calm
import FirecrackerSdk.Machine.Walk
import FirecrackerSdk.Machine.Starting
import FirecrackerSdk.Machine.Patience
import FirecrackerSdk.Machine.Cleanup
import FirecrackerSdk.Machine.CleanupNotes
import FirecrackerSdk.Machine.Outcome
import FirecrackerSdk.Machine.Cancel
import FirecrackerSdk.Machine.Custody
import FirecrackerSdk.Machine.Keeping
import FirecrackerSdk.Machine.Orphans
import FirecrackerSdk.Machine.StaleKills
import FirecrackerSdk.Machine.JailSocket
import FirecrackerSdk.Machine.Drives
import FirecrackerSdk.Machine.NetworkSetup
import FirecrackerSdk.Machine.Interfaces
import FirecrackerSdk.Machine.Boot
import FirecrackerSdk.Machine.MmdsIds
import FirecrackerSdk.Machine.LinkFiles
import FirecrackerSdk.Machine.LogFiles
import FirecrackerSdk.Machine.Snapshot
import FirecrackerSdk.Machine.Selection
import FirecrackerSdk.Machine.SnapshotBody
import FirecrackerSdk.Deadlines
import FirecrackerSdk.Signal.Manager
import FirecrackerSdk.Signal.Counting
import FirecrackerSdk.Signal.Runs
import FirecrackerSdk.Signal.Rollback
import FirecrackerSdk.Signal.Forwarding
import FirecrackerSdk.Signal.Callers
import FirecrackerSdk.Signal.Wiring
import FirecrackerSdk.Signal.Delivery
import FirecrackerSdk.Signal.Dispatch
import FirecrackerSdk.Signal.Ownership
import FirecrackerSdk.Signal.Progress
