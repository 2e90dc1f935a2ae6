import Viduce.Core.Run
import Viduce.Core.Py
import Viduce.Core.Tensor
import Viduce.Core.Absl
import Viduce.Core.Flow
import Viduce.Core.Rounding
import Viduce.Core.Ledger
import Viduce.Core.Image
import Viduce.Core.Overlap
import Viduce.Daemon.Temporal
import Viduce.Daemon.Chunks
import Viduce.Daemon.SessionRunner
import Viduce.Daemon.ChunkStep
import Viduce.Daemon.Origin
import Viduce.Daemon.MockModel
import Viduce.Daemon.Presence
import Viduce.Daemon.Stale
import Viduce.Daemon.Sampler
import Viduce.Daemon.Schedule
import Viduce.Daemon.Timeline
import Viduce.Daemon.Shm
import Viduce.Daemon.ShmRoundTrip
import Viduce.Daemon.Session
import Viduce.Daemon.Retry
import Viduce.Daemon.Output
import Viduce.Daemon.Keyframes
import Viduce.Daemon.Clip
import Viduce.Daemon.Service
import Viduce.Daemon.Segments
import Viduce.Daemon.Isolation
import Viduce.Daemon.Teardown
import Viduce.Daemon.Tiled
import Viduce.Daemon.TiledSession
import Viduce.Core.SendReceive
import Viduce.Core.Framing
import Viduce.Engine.FrameReader
import Viduce.Engine.FrameWriter
import Viduce.Engine.Ingest
import Viduce.Engine.EngineService
import Viduce.Engine.SessionThreads
import Viduce.Engine.Upscaler
import Viduce.Engine.Planes
import Viduce.Engine.Colours
import Viduce.Engine.Handles
import Viduce.Engine.FrameHandles
import Viduce.Engine.Pipeline
import Viduce.Engine.EnhanceVideo
import Viduce.Broadcast.Letterbox
import Viduce.Broadcast.Lifecycle
import Viduce.Core.Streaming
import Viduce.Core.Influence
import Viduce.Core.Parallel
import Viduce.Models.CausalConv
import Viduce.Models.Layers
import Viduce.Models.CausalVae
import Viduce.Models.WanVae
import Viduce.Models.Batch
import Viduce.Models.BatchVae
import Viduce.Models.Windows
import Viduce.Models.ConditionVae
import Viduce.Models.ConditionDecode
import Viduce.Models.ConditionBatch
import Viduce.Models.AttentionMasks
import Viduce.Models.ShiftedWindows
import Viduce.Models.ReceptiveField
import Viduce.Models.Transformer
import Viduce.Models.Chunking
import Viduce.Models.ConditionWindows
import Viduce.Models.MaskEncoder
import Viduce.Daemon.MaskLatents
import Viduce.Models.LqProjection
import Viduce.Models.Ema
