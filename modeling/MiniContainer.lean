import MiniContainer.CText
import MiniContainer.Container
import MiniContainer.GrowArray
import MiniContainer.OrderedMap
import MiniContainer.Paths
import MiniContainer.Program
import MiniContainer.Run
import MiniContainer.ResourceManager
import MiniContainer.Registry
import MiniContainer.StateFile
import MiniContainer.Lifecycle
import MiniContainer.Effect
import MiniContainer.MapRefinement
import MiniContainer.LifecycleInvariant
import MiniContainer.Reload
import MiniContainer.Reread
import MiniContainer.Framing
import MiniContainer.Shutdown
import MiniContainer.Restart
import MiniContainer.Session
import MiniContainer.Getopt
import MiniContainer.RunOptions
import MiniContainer.Attachment
import MiniContainer.CgroupUses
import MiniContainer.Keys
import MiniContainer.Confinement
import MiniContainer.SharedStateFile
import MiniContainer.ControlFiles
import MiniContainer.Monitor
import MiniContainer.CpuAccounting
import MiniContainer.ControlView
import MiniContainer.Configuration
import MiniContainer.CgroupPlaces
import MiniContainer.Ownership
import MiniContainer.AppliedLimits
import MiniContainer.Tokenizer
import MiniContainer.InteractiveCreate
import MiniContainer.ProcessTree
import MiniContainer.Members
import MiniContainer.FailedCreation
import MiniContainer.Utf8
import MiniContainer.Json
import MiniContainer.ContainerList
import MiniContainer.FreshIds
import MiniContainer.SystemCpu
import MiniContainer.Menu
import MiniContainer.Segments
import MiniContainer.Arguments
import MiniContainer.FileTree
import MiniContainer.MkdirP
import MiniContainer.Heap
import MiniContainer.ConfigMemory
import MiniContainer.RegistryMemory
import MiniContainer.CallMemory
import MiniContainer.ProcessMemory
import MiniContainer.Exec
import MiniContainer.Commands
import MiniContainer.MenuSession
import MiniContainer.MainProgram
import MiniContainer.ServerThread
import MiniContainer.MountIsolation
import MiniContainer.FileNodes
import MiniContainer.MinimalRoot
import MiniContainer.PopulateRoot
import MiniContainer.CompactMonitor
