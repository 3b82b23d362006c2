import Ych.ACPI.LocateTable
import Ych.ACPI.PCIe
import Ych.ACPI.PcieEnumeration
import Ych.Base.Allocations
import Ych.Base.AtomicObjects
import Ych.Base.BitFields
import Ych.Base.BitSets
import Ych.Base.Bitmap
import Ych.Base.ByteFiles
import Ych.Base.ByteMemory
import Ych.Base.ByteStrings
import Ych.Base.Coalescing
import Ych.Base.CountedLoops
import Ych.Base.InService
import Ych.Base.Links
import Ych.Base.LomutoSplit
import Ych.Base.Numerals
import Ych.Base.Ownership
import Ych.Base.PackedTables
import Ych.Base.PageTree
import Ych.Base.QuadStack
import Ych.Base.Raster
import Ych.Base.ReflectedCrc
import Ych.Base.RingQueue
import Ych.Base.RoundRobin
import Ych.Base.Runs
import Ych.Base.SiblingForest
import Ych.Base.Transducers
import Ych.Base.Typesetting
import Ych.Base.Words
import Ych.Base.X86
import Ych.Boot.Bootelvt
import Ych.CPU.GDT
import Ych.CPU.IDT
import Ych.CPU.ISRs
import Ych.CPU.Interrupt
import Ych.CPU.PAT
import Ych.CPU.PerCpu
import Ych.CPU.PerCpuInterrupts
import Ych.CPU.Sleep
import Ych.CPU.Spinlock
import Ych.CPU.SpinlockProtocol
import Ych.Devdriv.Device
import Ych.Devdriv.Driver
import Ych.Devdriv.PS2Command
import Ych.Devdriv.PS2Keyboard
import Ych.Devdriv.PS2Reports
import Ych.Devdriv.PS2Resync
import Ych.Devdriv.PS2Scancodes
import Ych.Devdriv.PS2Sequences
import Ych.Devdriv.Pair
import Ych.Devdriv.PairVisits
import Ych.Earlyvideo.DisplaywideTextProtocol
import Ych.Earlyvideo.FormatItems
import Ych.Earlyvideo.Formatters
import Ych.Earlyvideo.TextBounds
import Ych.Earlyvideo.TextLock
import Ych.Earlyvideo.TextPixels
import Ych.Earlyvideo.TextScreen
import Ych.HumanInterface.KeyboardHub
import Ych.HumanInterface.Keycodes
import Ych.Init.CanonicalMap
import Ych.Init.KrInitInt
import Ych.Init.KrInitMemmap
import Ych.Init.KrInitSMP
import Ych.Init.MadtCounts
import Ych.Init.ProcessMADT
import Ych.Init.QuicksortMemmap
import Ych.Intmgmt.DemandPaging
import Ych.Intmgmt.IOAPIC
import Ych.Intmgmt.IRQAldist
import Ych.Intmgmt.InterruptRouting
import Ych.Intmgmt.NMI
import Ych.Intmgmt.PageFault
import Ych.Intmgmt.Timer
import Ych.Intmgmt.TimerDeadlines
import Ych.Intmgmt.TimerEvents
import Ych.KRTL.CopyBuffer
import Ych.KRTL.FormatLimit
import Ych.KRTL.Krnlmem
import Ych.KRTL.Krnlstring
import Ych.KRTL.MoveBuffer
import Ych.KRTL.Numerals
import Ych.KRTL.StringSize
import Ych.Memory.Accounting
import Ych.Memory.AcquireAny
import Ych.Memory.AcquireHint
import Ych.Memory.AcquiredMetas
import Ych.Memory.ArenaRun
import Ych.Memory.BSmapInit
import Ych.Memory.BootSwitch
import Ych.Memory.BootstrapArena
import Ych.Memory.ContiguousSearch
import Ych.Memory.DenseAcquire
import Ych.Memory.DenseFound
import Ych.Memory.DirectMap
import Ych.Memory.DmapBlocks
import Ych.Memory.DmapBoot
import Ych.Memory.DmapEvicted
import Ych.Memory.DmapInit
import Ych.Memory.DmapOverlap
import Ych.Memory.DmapRun
import Ych.Memory.DmapSteps
import Ych.Memory.DmapStops
import Ych.Memory.DmapTables
import Ych.Memory.EncodingRuns
import Ych.Memory.EntryReadback
import Ych.Memory.EvictedPages
import Ych.Memory.FailedEncodings
import Ych.Memory.HeapBlocks
import Ych.Memory.HeapGrants
import Ych.Memory.HeapOffsets
import Ych.Memory.HeapOps
import Ych.Memory.HeapOrder
import Ych.Memory.HeapRelease
import Ych.Memory.HeapRequests
import Ych.Memory.HeapRestore
import Ych.Memory.HeapReturns
import Ych.Memory.HeapRun
import Ych.Memory.HeapSteps
import Ych.Memory.KernelRegions
import Ych.Memory.Krnlheap
import Ych.Memory.MMIO
import Ych.Memory.MmioFailure
import Ych.Memory.MmioMapping
import Ych.Memory.PTE
import Ych.Memory.PageAddress
import Ych.Memory.PageHunt
import Ych.Memory.PageMetas
import Ych.Memory.PageStatus
import Ych.Memory.PageStores
import Ych.Memory.PageStructs
import Ych.Memory.PageWalk
import Ych.Memory.PhysMetaArray
import Ych.Memory.PhysmemInit
import Ych.Memory.PhysmemRun
import Ych.Memory.PhysmemSmp
import Ych.Memory.Physmemmgmt
import Ych.Memory.RegionNodeAllocator
import Ych.Memory.RegionOverlap
import Ych.Memory.RegionPlaces
import Ych.Memory.Reservations
import Ych.Memory.RnaConsistency
import Ych.Memory.RnaRelease
import Ych.Memory.RnaRun
import Ych.Memory.SparseAcquire
import Ych.Memory.StaticMapRun
import Ych.Memory.StaticMapSound
import Ych.Memory.StaticMapStep
import Ych.Memory.StaticMapSupply
import Ych.Memory.StaticMapping
import Ych.Memory.TailBits
import Ych.Memory.Virtmemmgmt
import Ych.Memory.VirtualIndices
import Ych.Memory.VmRegionList
import Ych.Tools.GptFormat
import Ych.Tools.Imgtool
import Ych.Tools.MakeStandard
import Ych.Tools.MakeStandardSteps
import Ych.Tools.ProtectiveMbr
import Ych.Tools.RoutineLib
import Ych.Tools.RoutineLibExecute
import Ych.Tools.StandardDisk
