import NgxServer.Lib.TransitionSystem
import NgxServer.Lib.Heap
import NgxServer.Lib.Ownership
import NgxServer.Lib.QuarantinePool
import NgxServer.Lib.StreamSplitter
import NgxServer.Lib.Multimap
import NgxServer.Lib.Sweep
import NgxServer.Lib.LaneSweep
import NgxServer.Lib.Backlog
import NgxServer.Lib.DeliveryLedger
import NgxServer.Lib.GapCounter
import NgxServer.Lib.ShiftRegister
import NgxServer.Lib.RegisterPeriod
import NgxServer.Lib.Numeral
import NgxServer.Lib.BoundedSink
import NgxServer.Lib.PieceReader
import NgxServer.Lib.LockOrder
import NgxServer.Lib.Monitor
import NgxServer.Lib.WorkQueue
import NgxServer.Lib.Reaper
import NgxServer.Lib.WriteAhead
import NgxServer.Lib.CMemory
import NgxServer.Lib.Halting
import NgxServer.Comm
import NgxServer.Crc32
import NgxServer.State
import NgxServer.ConnPool
import NgxServer.TimerQueue
import NgxServer.Socket
import NgxServer.Request
import NgxServer.Accept
import NgxServer.Logic
import NgxServer.System
import NgxServer.Codec
import NgxServer.ThreadPool
import NgxServer.Locking
import NgxServer.Printf
import NgxServer.Log
import NgxServer.Config
import NgxServer.ConfigSteps
import NgxServer.SetProcTitle
import NgxServer.Signals
import NgxServer.StressClient
import NgxServer.ClientReader
import NgxServer.ReplyBuffers
import NgxServer.PoolRefinement
import NgxServer.Frames
import NgxServer.Occupancy
import NgxServer.PoolPartition
import NgxServer.Session
import NgxServer.PoolBound
import NgxServer.Clients
import NgxServer.RecvOwnership
import NgxServer.Reassembly
import NgxServer.ByteStream
import NgxServer.RecvWindow
import NgxServer.BufferSizes
import NgxServer.Agreement
import NgxServer.Security
import NgxServer.FloodHistory
import NgxServer.EpollMask
import NgxServer.SendMachine
import NgxServer.SendRefinement
import NgxServer.SendFraming
import NgxServer.CrossTalk
import NgxServer.Delivery
import NgxServer.SendBacklog
import NgxServer.SendOrder
import NgxServer.SendAccounting
import NgxServer.StaleReply
import NgxServer.Messages
import NgxServer.Traffic
import NgxServer.Service
import NgxServer.Progress
import NgxServer.TimerClock
import NgxServer.TimerDrain
import NgxServer.TimerCoverage
import NgxServer.Heartbeat
import NgxServer.TimeOutKick
import NgxServer.Recycler
import NgxServer.Vacancy
import NgxServer.Drain
import NgxServer.WorkerQueue
import NgxServer.WorkerPool
import NgxServer.ThreadStart
import NgxServer.Shutdown
import NgxServer.Checksum
import NgxServer.ChecksumErrors
import NgxServer.NumberFormat
import NgxServer.Truncation
import NgxServer.LogText
import NgxServer.ConfigFile
import NgxServer.LoadTermination
import NgxServer.TitleBlock
import NgxServer.ProcessSteps
import NgxServer.Reaping
import NgxServer.ProcessIdentity
