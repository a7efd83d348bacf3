import Dmaplane.Lib.System
import Dmaplane.Lib.Ring
import Dmaplane.Channel
import Dmaplane.ChannelSys
import Dmaplane.ChannelFifo
import Dmaplane.Lib.Threads
import Dmaplane.ChannelAccount
import Dmaplane.Lib.Owner
import Dmaplane.ChannelTable
import Dmaplane.ChannelOwner
import Dmaplane.ChannelExit
import Dmaplane.Histogram
import Dmaplane.IoctlAtomic
import Dmaplane.Lib.Heap
import Dmaplane.Lib.Handle
import Dmaplane.Buffer
import Dmaplane.BufferSys
import Dmaplane.ExportOwner
import Dmaplane.BufferMem
import Dmaplane.BufferVisible
import Dmaplane.BufferMmap
import Dmaplane.Peer
import Dmaplane.PeerOwner
import Dmaplane.Mr
import Dmaplane.DataOp
import Dmaplane.MrSys
import Dmaplane.MrFlow
import Dmaplane.MrTeardown
import Dmaplane.MrBacking
import Dmaplane.Sge
import Dmaplane.Handles
import Dmaplane.KvBitmap
import Dmaplane.KvPeer
import Dmaplane.KvAck
import Dmaplane.Flow
import Dmaplane.FlowSys
import Dmaplane.FlowWindow
import Dmaplane.Queues
import Dmaplane.QueueBounds
import Dmaplane.QueueRuns
import Dmaplane.Lib.Objects
import Dmaplane.Lib.Loop
import Dmaplane.RdmaSetup
import Dmaplane.RdmaConserved
import Dmaplane.MrResources
import Dmaplane.MrConserved
import Dmaplane.BenchLoops
import Dmaplane.Lib.CasLoop
import Dmaplane.HistCalls
import Dmaplane.HistConverge
import Dmaplane.HistClear
import Dmaplane.Lib.Strided
import Dmaplane.Lib.Chunks
import Dmaplane.KvTensor
import Dmaplane.KvPack
import Dmaplane.KvLoopback
import Dmaplane.KvCredits
import Dmaplane.Lib.Stream
import Dmaplane.KvServers
import Dmaplane.KvServerInv
import Dmaplane.KvPrefill
import Dmaplane.KvDecode
import Dmaplane.KvServed
import Dmaplane.KvFinish
import Dmaplane.Lib.Paged
import Dmaplane.Lib.Stuck
import Dmaplane.GpuCalls
import Dmaplane.GpuDisabled
import Dmaplane.GpuCopy
import Dmaplane.GpuMapping
import Dmaplane.P2pSys
import Dmaplane.P2pFlow
import Dmaplane.P2pTables
import Dmaplane.P2pExit
import Dmaplane.P2pMappings
import Dmaplane.Completions
import Dmaplane.DmabufMmap
import Dmaplane.BufferNuma
import Dmaplane.BufferConserved
import Dmaplane.FlowWatermarks
import Dmaplane.Lib.Exits
import Dmaplane.Sustained
import Dmaplane.SustainedCredits
import Dmaplane.FlowCalls
import Dmaplane.SustainedStats
import Dmaplane.RecvAhead
import Dmaplane.Lib.Rank
import Dmaplane.BenchResults
import Dmaplane.BenchSweep
import Dmaplane.BenchP99
import Dmaplane.NumaBench
import Dmaplane.Lib.Compact
import Dmaplane.NumaTopo
import Dmaplane.Throughput
import Dmaplane.HistPercentile
import Dmaplane.ChannelStop
import Dmaplane.KvChunks
import Dmaplane.KvIterations
import Dmaplane.KvPattern
import Dmaplane.KvData
import Dmaplane.Lib.Layout
import Dmaplane.Lib.Pipe
import Dmaplane.KvMetadata
import Dmaplane.Lib.Record
import Dmaplane.KvClient
import Dmaplane.KvRebuild
import Dmaplane.Device
import Dmaplane.BufferUnload
import Dmaplane.BufferDrain
import Dmaplane.DmabufImport
import Dmaplane.ModuleLife
