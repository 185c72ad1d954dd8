import ZXFoundation.Scoms.Hierarchy
import ZXFoundation.Dgp.Cap.Revocation
import ZXFoundation.Memory.FrameTable
import ZXFoundation.Dgp.StorageKeys
import ZXFoundation.Arch.Uaccess
import ZXFoundation.Sched.Locks
import ZXFoundation.Sched.Budgets
import ZXFoundation.Sched.Siblings
import ZXFoundation.Sched.Bandwidth
import ZXFoundation.Sync.Rcu
import ZXFoundation.Sync.RtInheritance
import ZXFoundation.Sys.Timer
import ZXFoundation.Sys.IoCompletions
import ZXFoundation.Sync.QspinlockOrder
import ZXFoundation.Dgp.SignalMask
import ZXFoundation.Dgp.Domain.StrandList
import ZXFoundation.Dgp.PortalTokens
import ZXFoundation.Sync.IrqState
import ZXFoundation.Smp.CsdExact
import ZXFoundation.Boot.VerifiedLoad
import ZXFoundation.Sys.Unbind
import ZXFoundation.Boot.LoaderTranslation
import ZXFoundation.Dgp.SignalDelivery
import ZXFoundation.Dgp.Gate.Receive
import ZXFoundation.Dgp.Gate.Handlers
import ZXFoundation.Memory.Vm
import ZXFoundation.Sched.CpuDown
import ZXFoundation.Sched.Groups
import ZXFoundation.Sys.WallClock
import ZXFoundation.Sched.Pelt
import ZXFoundation.Sync.WaitQueue
import ZXFoundation.Memory.Kmalloc
import ZXFoundation.Sys.Format
