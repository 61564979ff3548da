import UniProton.Gdb.Packet
import UniProton.Gdb.RingBuffer
import UniProton.Ipc.MutexHolder
import UniProton.Ipc.Pending
import UniProton.Ipc.QueueObservers
import UniProton.Ipc.RwCause
import UniProton.Ipc.SignalWaits
import UniProton.Ipc.Suspension
import UniProton.Ipc.Wakers
import UniProton.Irq.CombineLists
import UniProton.Irq.Dispatch
import UniProton.Kernel.Preemption
import UniProton.Kernel.RoundRobin
import UniProton.Kernel.TickCount
import UniProton.Kernel.Timeouts
import UniProton.Lowpower.ChangeFreq
import UniProton.Mem.FscTwice
import UniProton.Om.CpupSample
import UniProton.Om.HookSet
import UniProton.Om.Trace
import UniProton.Perf.RingbufCallers
import UniProton.Posix.Create
import UniProton.Posix.Keys
import UniProton.Posix.Once
import UniProton.Posix.TimeOut
import UniProton.Smp.Bind
import UniProton.Smp.InitGuard
import UniProton.Smp.TickTargets
import UniProton.Smp.Timers
import UniProton.Timer.Convert
import UniProton.Timer.Deleted
import UniProton.Timer.Release
import UniProton.Timer.Storage
import UniProton.Timer.TicklessScan
