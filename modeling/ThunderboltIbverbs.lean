import ThunderboltIbverbs.Lib.Run
import ThunderboltIbverbs.Proto.NativeData
import ThunderboltIbverbs.Path.Model
import ThunderboltIbverbs.Path.Link
import ThunderboltIbverbs.Path.Spec
import ThunderboltIbverbs.Path.Framing
import ThunderboltIbverbs.Path.InStep
import ThunderboltIbverbs.Path.Credit
import ThunderboltIbverbs.Path.RawStream
import ThunderboltIbverbs.Path.Progress
import ThunderboltIbverbs.Lib.Threads
import ThunderboltIbverbs.Send.Frames
import ThunderboltIbverbs.Send.Model
import ThunderboltIbverbs.Send.Exec
import ThunderboltIbverbs.Send.Spec
import ThunderboltIbverbs.Send.Calls
import ThunderboltIbverbs.Send.SameBytes
import ThunderboltIbverbs.Send.RawOnce
import ThunderboltIbverbs.Send.Posting
import ThunderboltIbverbs.Send.AcceptedPsns
import ThunderboltIbverbs.Send.CompletionOrder
import ThunderboltIbverbs.Send.ReapWalk
import ThunderboltIbverbs.Send.RnrBudget
import ThunderboltIbverbs.Send.Outcome
import ThunderboltIbverbs.Read.Model
import ThunderboltIbverbs.Read.Reassembly
import ThunderboltIbverbs.Read.Response
import ThunderboltIbverbs.Proto.NativeWire
import ThunderboltIbverbs.Read.LostFragment
import ThunderboltIbverbs.Send.Wire
import ThunderboltIbverbs.Send.Delivered
import ThunderboltIbverbs.Path.Ledger
import ThunderboltIbverbs.Send.Slots
import ThunderboltIbverbs.Send.Window
import ThunderboltIbverbs.Apple.Model
import ThunderboltIbverbs.Apple.Split
import ThunderboltIbverbs.Apple.Gather
import ThunderboltIbverbs.Apple.Reassembly
import ThunderboltIbverbs.Apple.Completions
import ThunderboltIbverbs.Recv.Alike
import ThunderboltIbverbs.Recv.Spec
import ThunderboltIbverbs.Recv.Reset
import ThunderboltIbverbs.Pair.Model
import ThunderboltIbverbs.Pair.Credits
import ThunderboltIbverbs.Pair.Reused
import ThunderboltIbverbs.Reliab.DeliverOnce
import ThunderboltIbverbs.Reliab.FreshOp
import ThunderboltIbverbs.Reliab.Tiling
import ThunderboltIbverbs.Reliab.RnrCost
import ThunderboltIbverbs.Reliab.OrderQueue
import ThunderboltIbverbs.Tbnet.HopIds
import ThunderboltIbverbs.Tbnet.Reciprocal
import ThunderboltIbverbs.Control.Model
import ThunderboltIbverbs.Path.Hello
import ThunderboltIbverbs.Control.Edge
import ThunderboltIbverbs.Control.Agreed
import ThunderboltIbverbs.Tx.Model
import ThunderboltIbverbs.Tx.Spec
import ThunderboltIbverbs.Tx.Books
import ThunderboltIbverbs.Tx.Counters
import ThunderboltIbverbs.Tx.RetiredOnce
import ThunderboltIbverbs.Tx.Streams
import ThunderboltIbverbs.Tx.Wakeup
import ThunderboltIbverbs.Sq.Model
import ThunderboltIbverbs.Sq.Spec
import ThunderboltIbverbs.Sq.Window
import ThunderboltIbverbs.Timer.Model
import ThunderboltIbverbs.Timer.Stamps
import ThunderboltIbverbs.Timer.Idle
import ThunderboltIbverbs.Timer.Spec
import ThunderboltIbverbs.Timer.Watched
import ThunderboltIbverbs.Lib.Layout
import ThunderboltIbverbs.Proto.DataCodec
import ThunderboltIbverbs.Proto.HelloCodec
import ThunderboltIbverbs.Tbnet.TbipCodec
import ThunderboltIbverbs.Send.FailedPost
import ThunderboltIbverbs.Send.ZeroCopy
import ThunderboltIbverbs.Rail.RefusedBind
import ThunderboltIbverbs.Rail.Modify
import ThunderboltIbverbs.Rail.FailedModify
import ThunderboltIbverbs.Config.Published
import ThunderboltIbverbs.Config.Choice
import ThunderboltIbverbs.Lib.Trail
import ThunderboltIbverbs.Path.Window
import ThunderboltIbverbs.Proto.FragmentShape
import ThunderboltIbverbs.Proto.FragmentTiling
import ThunderboltIbverbs.Sq.Admission
import ThunderboltIbverbs.Sq.Order
import ThunderboltIbverbs.Apple.Truncated
import ThunderboltIbverbs.Control.Exchange
import ThunderboltIbverbs.Tx.Load
import ThunderboltIbverbs.Rail.Epochs
import ThunderboltIbverbs.Rail.Select
import ThunderboltIbverbs.Recv.Acts
import ThunderboltIbverbs.Recv.Reap
import ThunderboltIbverbs.Recv.Accounts
import ThunderboltIbverbs.Recv.NoRoom
import ThunderboltIbverbs.Recv.Verdicts
import ThunderboltIbverbs.Apple.Waiting
import ThunderboltIbverbs.Recv.Waiting
import ThunderboltIbverbs.Recv.Posted
import ThunderboltIbverbs.Trace.Percentiles
import ThunderboltIbverbs.Cq.Notify
import ThunderboltIbverbs.Service.Names
import ThunderboltIbverbs.Service.Publish
import ThunderboltIbverbs.Recv.Peer
import ThunderboltIbverbs.Recv.Ledger
import ThunderboltIbverbs.Recv.Delivery
import ThunderboltIbverbs.Recv.InOrder
import ThunderboltIbverbs.Recv.Fragments
import ThunderboltIbverbs.Recv.ExactlyOnce
import ThunderboltIbverbs.Recv.NoError
import ThunderboltIbverbs.Lib.Largest
import ThunderboltIbverbs.Trace.Worst
import ThunderboltIbverbs.Lib.Holdings
import ThunderboltIbverbs.Path.Lifecycle
import ThunderboltIbverbs.Path.Released
import ThunderboltIbverbs.Lib.Solo
import ThunderboltIbverbs.Sq.Worker
import ThunderboltIbverbs.Sq.Wire
import ThunderboltIbverbs.Apple.Stream
import ThunderboltIbverbs.Apple.Link
import ThunderboltIbverbs.Lib.Objects
import ThunderboltIbverbs.Verbs.QueuePairs
import ThunderboltIbverbs.Verbs.Regions
import ThunderboltIbverbs.Lib.Scatter
import ThunderboltIbverbs.Memory.Umem
import ThunderboltIbverbs.Memory.Accesses
import ThunderboltIbverbs.Pair.Received
