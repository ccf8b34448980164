import MemoryUtils.C.Destroy
import MemoryUtils.C.Locking
import MemoryUtils.C.Pins
import MemoryUtils.C.ReadRetry
import MemoryUtils.C.Replay
import MemoryUtils.Common.Uxpte
import MemoryUtils.Cpp.Classes
import MemoryUtils.Cpp.PinBalance
import MemoryUtils.Cpp.Contract
import MemoryUtils.FailedRebuild
import MemoryUtils.Common.PinUpdates
import MemoryUtils.Common.UxPageTable
import MemoryUtils.Common.UxpteRanges
import MemoryUtils.Common.PinSequences
import MemoryUtils.Cpp.Resize
import MemoryUtils.Cpp.PinnedAccess
import MemoryUtils.Cpp.ResizedContent
import MemoryUtils.Cpp.AshmemResources
import MemoryUtils.Lib.Carry
import MemoryUtils.MemInfo.Rollup
import MemoryUtils.MemInfo.TotalMemory
import MemoryUtils.Cpp.TableRefinement
import MemoryUtils.C.Builder
import MemoryUtils.MemInfo.PssReaders
import MemoryUtils.MemInfo.Rss
import MemoryUtils.BuilderChains
import MemoryUtils.C.AppendModify
import MemoryUtils.C.Conservation
import MemoryUtils.C.BeginEnds
import MemoryUtils.C.LargeObjects
import MemoryUtils.Common.PlainMemory
import MemoryUtils.C.Refinement
import MemoryUtils.Cpp.Refinement
import MemoryUtils.C.Contention
import MemoryUtils.C.Drain
import MemoryUtils.C.FailedUnlocks
import MemoryUtils.Dmabuf.Heap
import MemoryUtils.Common.SharedTables
import MemoryUtils.Cpp.MemResources
import MemoryUtils.MemInfo.DmaInfo
import MemoryUtils.Cpp.ChangedData
import MemoryUtils.C.Code
import MemoryUtils.C.CodeRefinement
import MemoryUtils.C.CodeContract
import MemoryUtils.Cpp.Simulation
import MemoryUtils.Cpp.Words
