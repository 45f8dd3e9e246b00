import Pinyon.Library.History
import Pinyon.Library.Packing
import Pinyon.Library.Span
import Pinyon.Pine.Target
import Pinyon.Pine.TwoMath
import Pinyon.Pine.FreeList
import Pinyon.Pine.FreeListLayout
import Pinyon.Pine.FreeListSteps
import Pinyon.Pine.FreeListSafety
import Pinyon.Pine.FreeListConservation
import Pinyon.Pine.BitMap
import Pinyon.Pine.SlabAllocator
import Pinyon.Pine.SlabCells
import Pinyon.Pine.SlabSafety
import Pinyon.Pine.Vector
import Pinyon.Pine.VectorSafety
import Pinyon.Pine.VectorBuffer
import Pinyon.Pine.FixedHeap
import Pinyon.Pine.Page
import Pinyon.Pine.PageAllocator
import Pinyon.Pine.PageLists
import Pinyon.Pine.PageReturns
import Pinyon.Pine.PageOwnership
import Pinyon.Pine.PageBroker
import Pinyon.Pine.BrokerPromise
import Pinyon.Kernel.TaskHeap
import Pinyon.Kernel.File
import Pinyon.Kernel.FileReferences
import Pinyon.Kernel.Uart
import Pinyon.Kernel.UartInput
import Pinyon.Kernel.UartOutput
import Pinyon.Library.Rotation
import Pinyon.Kernel.Tasks
import Pinyon.Kernel.SchedulerRounds
import Pinyon.Kernel.UartCalls
import Pinyon.Kernel.FilePlaces
import Pinyon.Kernel.FileCalls
import Pinyon.Pine.CString
import Pinyon.Pine.Print
import Pinyon.Userspace.Printf
import Pinyon.Userspace.PrintfText
import Pinyon.Library.Aarch64
import Pinyon.Kernel.ExceptionWrap
import Pinyon.Library.Aarch64Control
import Pinyon.Kernel.TaskSwitch
import Pinyon.Kernel.TaskSuspension
import Pinyon.Kernel.SwitchTransparency
import Pinyon.Library.BitFields
import Pinyon.Kernel.Mmu
import Pinyon.Kernel.MmuAllocator
import Pinyon.Kernel.MmuStock
import Pinyon.Kernel.MmuRollback
import Pinyon.Kernel.MmuRecording
import Pinyon.Kernel.MmuTranslation
import Pinyon.Kernel.MmuTables
import Pinyon.Kernel.CpuTime
import Pinyon.Library.LeastFree
import Pinyon.Kernel.DescriptorMap
import Pinyon.Pine.Owner
import Pinyon.Pine.FixedHeapSafety
import Pinyon.Pine.VectorList
import Pinyon.Library.Lifetimes
import Pinyon.Pine.VectorLifetimes
import Pinyon.Pine.PageContract
import Pinyon.Pine.PageCosts
import Pinyon.Pine.PageFiling
import Pinyon.Library.Ledger
import Pinyon.Kernel.TaskResources
import Pinyon.Kernel.ResourceNeutrality
import Pinyon.Kernel.ExitOrder
import Pinyon.Library.Wrapping
import Pinyon.Kernel.SystemTimer
import Pinyon.Kernel.TimerRearming
import Pinyon.Kernel.JiffyCount
import Pinyon.Kernel.Sleep
import Pinyon.Kernel.Font
import Pinyon.Kernel.Display
import Pinyon.Library.Digits
import Pinyon.Pine.Decimal
import Pinyon.Pine.PrintPieces
import Pinyon.Pine.BufferPrint
import Pinyon.Pine.StringCopy
import Pinyon.Pine.FreeListBinder
import Pinyon.Pine.MaybeLifetimes
import Pinyon.Pine.StringCompare
import Pinyon.Pine.StringView
import Pinyon.Pine.LowerBound
import Pinyon.Pine.PageOrder
import Pinyon.Pine.BitMapUse
import Pinyon.Pine.Cast
import Pinyon.Kernel.Syscall
import Pinyon.Userspace.Syscalls
import Pinyon.Kernel.FileRead
import Pinyon.Userspace.Read
import Pinyon.Userspace.Malloc
import Pinyon.Userspace.MemStats
import Pinyon.Library.Aarch32
import Pinyon.Kernel.TaskKind
import Pinyon.Kernel.TaskSaving
import Pinyon.Library.Rounding
import Pinyon.Pine.Alignment
import Pinyon.Pine.PowerRounding
import Pinyon.Library.Scan
import Pinyon.Pine.PageSearch
import Pinyon.Library.LinkedPath
import Pinyon.Pine.LinkedList
import Pinyon.Pine.LinkedListSequence
import Pinyon.Pine.LinkedListIteration
import Pinyon.Library.Aarch32Modes
import Pinyon.Kernel.InterruptWrap
import Pinyon.Kernel.Preemption
import Pinyon.Library.Blocks
import Pinyon.Library.ContextSwitch
import Pinyon.Kernel.TaskSwitch32
import Pinyon.Kernel.SwitchTransparency32
import Pinyon.Kernel.Mailbox
import Pinyon.Library.Cores
import Pinyon.Library.Aarch64Levels
import Pinyon.Kernel.Boot64
import Pinyon.Kernel.Image
import Pinyon.Kernel.Vectors32
import Pinyon.Kernel.Boot32
