import KetamaRouter.ClientViews
import KetamaRouter.CommandCells
import KetamaRouter.CommandKeys
import KetamaRouter.CommandTable
import KetamaRouter.Confinement
import KetamaRouter.ConnectionLimit
import KetamaRouter.ConnectionStatistics
import KetamaRouter.ConsistentHashing
import KetamaRouter.CounterBank
import KetamaRouter.CounterFrame
import KetamaRouter.CounterRetention
import KetamaRouter.CounterStructure
import KetamaRouter.CounterWindow
import KetamaRouter.CountqueCalls
import KetamaRouter.CountqueExpiry
import KetamaRouter.CountqueRecording
import KetamaRouter.CountqueShape
import KetamaRouter.CountqueTimes
import KetamaRouter.DecoderRefinement
import KetamaRouter.Dispatch
import KetamaRouter.EncoderBuffers
import KetamaRouter.Happenings
import KetamaRouter.Isolation
import KetamaRouter.LengthBlind
import KetamaRouter.Library.Apportionment
import KetamaRouter.Library.Balance
import KetamaRouter.Library.BlockBuffer
import KetamaRouter.Library.CellHeap
import KetamaRouter.Library.CircularSuccessor
import KetamaRouter.Library.Clamped
import KetamaRouter.Library.Delimited
import KetamaRouter.Library.FaultProgram
import KetamaRouter.Library.HashTable
import KetamaRouter.Library.LabelledRun
import KetamaRouter.Library.Ledger
import KetamaRouter.Library.MachineIndex
import KetamaRouter.Library.Oblivious
import KetamaRouter.Library.PointerChain
import KetamaRouter.Library.RegisterRenaming
import KetamaRouter.Library.Simulation
import KetamaRouter.Library.SlidingWindow
import KetamaRouter.Library.Totals
import KetamaRouter.LineBuffers
import KetamaRouter.LineOutcome
import KetamaRouter.LineOwnership
import KetamaRouter.LineProcessing
import KetamaRouter.LoadBalance
import KetamaRouter.Md5Rounds
import KetamaRouter.Md5Streaming
import KetamaRouter.MemoryInvariant
import KetamaRouter.MessageInvariant
import KetamaRouter.MessageOwnership
import KetamaRouter.MessageShape
import KetamaRouter.Ownership
import KetamaRouter.PabufShape
import KetamaRouter.ParameterCount
import KetamaRouter.ParameterLimits
import KetamaRouter.PartialWrites
import KetamaRouter.PoolConservation
import KetamaRouter.PoolHighWater
import KetamaRouter.PoolInvariant
import KetamaRouter.Protocol.Decimal
import KetamaRouter.Protocol.Reader
import KetamaRouter.Protocol.Wire
import KetamaRouter.Quiescence
import KetamaRouter.ReadLoop
import KetamaRouter.ReaderRefinement
import KetamaRouter.ReplyOwnership
import KetamaRouter.ReplyPerRequest
import KetamaRouter.RequestAccounting
import KetamaRouter.RingConstruction
import KetamaRouter.RingLifetime
import KetamaRouter.RingLimits
import KetamaRouter.RingLookup
import KetamaRouter.RingPermutation
import KetamaRouter.RingRouting
import KetamaRouter.RingShares
import KetamaRouter.RoundTrip
import KetamaRouter.Schedules
import KetamaRouter.Segmentation
import KetamaRouter.ServerArray
import KetamaRouter.ServerRegistration
import KetamaRouter.ServerStatistics
import KetamaRouter.Source.CString
import KetamaRouter.Source.Command
import KetamaRouter.Source.CommandTable
import KetamaRouter.Source.Countque
import KetamaRouter.Source.Decoder
import KetamaRouter.Source.Ketama
import KetamaRouter.Source.Md5
import KetamaRouter.Source.Md5Process
import KetamaRouter.Source.Md5Stream
import KetamaRouter.Source.Memory
import KetamaRouter.Source.Message
import KetamaRouter.Source.Pabuf
import KetamaRouter.Source.Response
import KetamaRouter.Source.Server
import KetamaRouter.Source.World
import KetamaRouter.System
import KetamaRouter.TextBounds
import KetamaRouter.Threads
import KetamaRouter.Transcript
import KetamaRouter.WorldInvariant
