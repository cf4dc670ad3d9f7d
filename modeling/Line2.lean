import Line2.Library.Runs
import Line2.Library.Memory
import Line2.Library.Stack
import Line2.Ia32.Processor
import Line2.Ia32.Decoder
import Line2.Ia32.Assembly
import Line2.Lnexec.GsSupport
import Line2.Lnexec.Intercept
import Line2.Lnexec.SysTls
import Line2.Lnexec.IoVectors
import Line2.Lnexec.GsDecoding
import Line2.Lnexec.SyscallDispatch
import Line2.Lnexec.SyscallTrap
import Line2.Lnexec.HeapBacking
import Line2.Lnexec.BrkReference
import Line2.Lnexec.InputConservation
import Line2.Lnexec.ThreadArea
import Line2.Lnexec.ThreadPointer
import Line2.Lnexec.TlsIsolation
import Line2.ElfLoader.ElfFile
import Line2.ElfLoader.Boundaries
import Line2.ElfLoader.ImageFidelity
import Line2.ElfLoader.WriteContainment
import Line2.Ia32.Conditions
import Line2.Lnexec.HandlerFrame
import Line2.Lnexec.EmulatedFlags
import Line2.Lnexec.TableSafety
import Line2.Lnexec.SysWrite
import Line2.Lnexec.ScatteredInput
import Line2.ElfLoader.Format
import Line2.ElfLoader.Constructor
import Line2.ElfLoader.RoundTrip
import Line2.ElfLoader.TableSoundness
import Line2.ElfLoader.HandleBalance
import Line2.Library.ProcessImage
import Line2.Lnexec.Startup
import Line2.ElfLoader.ImageHull
import Line2.ElfLoader.ConstructorEnds
import Line2.ElfLoader.HandleReuse
import Line2.Lnexec.Admission
import Line2.Lnexec.InstalledDescriptor
import Line2.Lnexec.GsSlot
import Line2.Lnexec.SysTime
import Line2.Lnexec.VectoredTotals
import Line2.Library.CString
import Line2.Lnexec.SysUname
import Line2.Lnexec.Messages
import Line2.Library.Locality
import Line2.Lnexec.VectoredCalls
import Line2.Lnexec.FallbackLoops
import Line2.Library.Simulation
import Line2.Lnexec.SyscallTable
import Line2.Lnexec.SyscallFrame
import Line2.Lnexec.HandlerLocality
import Line2.Lnexec.Machine
import Line2.Lnexec.GsExecution
import Line2.Lnexec.Selectors
import Line2.Lnexec.GuestProcess
import Line2.Lnexec.SystemRuns
import Line2.Lnexec.GuestStreams
import Line2.Lnexec.ThreadRuns
import Line2.Lnexec.CallEffects
import Line2.ElfLoader.SegmentOverlay
import Line2.Lnexec.LoadedImage
import Line2.Lnexec.HiddenMemory
import Line2.Lnexec.Progress
import Line2.Lnexec.SlotAccounting
import Line2.Lnexec.HeapRuns
