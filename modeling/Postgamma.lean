import Postgamma.Library.ParentTree
import Postgamma.Library.Program
import Postgamma.Library.Text
import Postgamma.Library.LittleEndian
import Postgamma.Library.Json
import Postgamma.Library.CrashFile
import Postgamma.Storage.Namespace
import Postgamma.Storage.NamespaceTree
import Postgamma.Storage.NamespaceRestore
import Postgamma.Storage.NamespaceRuns
import Postgamma.Storage.Checkpoint
import Postgamma.Storage.Record
import Postgamma.Storage.Journal
import Postgamma.Storage.JournalCalls
import Postgamma.Storage.Slots
import Postgamma.Storage.JournalSpec
import Postgamma.Storage.JournalAppend
import Postgamma.Storage.JournalOpen
import Postgamma.Storage.JournalRuns
import Postgamma.Storage.JournalRejections
import Postgamma.Library.IntrusiveList
import Postgamma.Library.Census
import Postgamma.Runtime.Interrupts
import Postgamma.Runtime.ResultBudget
import Postgamma.Runtime.Registry
import Postgamma.Runtime.RegistryRuns
import Postgamma.Runtime.RegistryInvariants
import Postgamma.Runtime.RegistryExecutions
import Postgamma.Runtime.RegistrySeats
import Postgamma.Runtime.RegistryMoves
import Postgamma.Runtime.RegistryScheduling
import Postgamma.Runtime.RegistryYields
import Postgamma.Runtime.RegistryCompletions
import Postgamma.Runtime.RegistryConservation
import Postgamma.Library.TwosComplement
import Postgamma.Runtime.MemoryPool
import Postgamma.Runtime.MemoryPoolRuns
import Postgamma.Runtime.RoleCache
import Postgamma.Runtime.CheckpointTracker
import Postgamma.Runtime.CheckpointTrackerRuns
import Postgamma.Library.Splice
import Postgamma.Build.ReplacementPlan
import Postgamma.Build.ReplacementMerge
import Postgamma.Library.Heap
import Postgamma.Runtime.DeadlineHeap
import Postgamma.Runtime.AlarmService
import Postgamma.Runtime.AlarmServiceRuns
import Postgamma.Embedded.CopyTermination
import Postgamma.Library.Ring
import Postgamma.Embedded.EventRouter
import Postgamma.Embedded.EventRouterRuns
import Postgamma.Runtime.Pipes
import Postgamma.Runtime.PipesRuns
import Postgamma.Embedded.PublicApi
import Postgamma.Embedded.RequestAccounting
import Postgamma.Embedded.MemoryTransport
import Postgamma.Embedded.MemoryTransportLifetime
import Postgamma.Embedded.MemoryTransportMoves
import Postgamma.Embedded.MemoryTransportStreams
import Postgamma.Embedded.MemoryTransportWakeups
import Postgamma.Embedded.ObjectOwnership
import Postgamma.Embedded.ApiRuns
import Postgamma.Library.Decimal
import Postgamma.Library.Calendar
import Postgamma.Embedded.ArrowValues
import Postgamma.Embedded.PgValues
import Postgamma.Embedded.ArrowDecoding
import Postgamma.Embedded.ArrowColumns
import Postgamma.Embedded.ArrowExport
import Postgamma.Library.Cursor
import Postgamma.Wasm.Wire
import Postgamma.Wasm.Results
import Postgamma.Wasm.ArchiveFrames
import Postgamma.Wasm.ArchiveLoading
import Postgamma.Library.FileTree
import Postgamma.Wasm.DirectoryArchive
import Postgamma.Wasm.DirectoryRestoring
import Postgamma.Wasm.DirectoryRoundTrip
import Postgamma.Runtime.VirtualTimer
import Postgamma.Python.Codec
import Postgamma.Python.Intervals
import Postgamma.Python.ArrayText
import Postgamma.Python.Closing
import Postgamma.Embedded.Supervisor
import Postgamma.Embedded.SupervisorQueue
import Postgamma.Embedded.SupervisorTickets
import Postgamma.Embedded.SupervisorSections
import Postgamma.Embedded.SupervisorRuns
import Postgamma.Embedded.SupervisorWakeups
import Postgamma.Wasm.SerialQueue
import Postgamma.Wasm.Admission
import Postgamma.Wasm.Readiness
import Postgamma.Embedded.StartupOptions
import Postgamma.Embedded.Deadlines
import Postgamma.Embedded.ResultDelivery
import Postgamma.Python.DescriptorHub
import Postgamma.Python.TransactionScope
import Postgamma.Wasm.CodecValues
import Postgamma.Python.Bytea
import Postgamma.Wasm.ArrayCodec
import Postgamma.Wasm.Requests
import Postgamma.Build.CatalogData
import Postgamma.Build.CatalogJson
import Postgamma.Build.CatalogReadBack
import Postgamma.Python.RequestGate
import Postgamma.Python.RequestGateRuns
import Postgamma.Library.BlockStore
import Postgamma.Runtime.MemoryArena
import Postgamma.Runtime.MemoryArenaRuns
import Postgamma.Runtime.MemoryArenaContents
import Postgamma.Library.Ownership
import Postgamma.Wasm.BridgeHandles
import Postgamma.Wasm.BridgeContract
import Postgamma.Wasm.BridgeCommands
import Postgamma.Wasm.BridgeRuns
