import Cart.Inflight
import Cart.RpcOnce
import Cart.SwimMerge
import Cart.SwimNet
import Cart.Hlc
import Cart.GroupDistinct
import Cart.RegisterRun
import Cart.GroupReplace
import Cart.GroupUndoSecondary
import Cart.GroupUndoPrimary
import Cart.HgRecv
import Cart.IvIsolation
import Cart.IvReplies
import Cart.IvPending
import Cart.IvBuffers
import Cart.BinheapRun
import Cart.BinheapRelease
import Cart.ContextTable
import Cart.LifecycleRun
import Cart.AttachInfoLoad
import Cart.IvUpdateOnce
import Cart.IvForward
import Cart.SwimRing
import Cart.SwimGossip
import Cart.SwimRelay
import Cart.FaultSchedule
import Cart.HashFunctions
import Cart.Progress
import Cart.HandleHash
