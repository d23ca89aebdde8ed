import Utinydrm.Lib.Effect
import Utinydrm.Lib.Chunking
import Utinydrm.Lib.BitStream
import Utinydrm.Lib.Transition
import Utinydrm.Lib.Extremes
import Utinydrm.Device.World
import Utinydrm.Device.TxBuffer
import Utinydrm.Device.Wire
import Utinydrm.Device.BusContract
import Utinydrm.Spi.Sync
import Utinydrm.Spi.Transfer
import Utinydrm.Spi.Pixels
import Utinydrm.Spi.ChunkedFlush
import Utinydrm.Spi.MultiTransfer
import Utinydrm.MipiDbi.Option1
import Utinydrm.MipiDbi.NativeWords
import Utinydrm.MipiDbi.NativeSafety
import Utinydrm.MipiDbi.Packing
import Utinydrm.MipiDbi.EmulatedWords
import Utinydrm.MipiDbi.Option3
import Utinydrm.MipiDbi.Regmap
import Utinydrm.MipiDbi.CommandProtocol
import Utinydrm.MipiDbi.PixelOrder
import Utinydrm.Tinydrm.Helpers
import Utinydrm.Tinydrm.MergeClips
import Utinydrm.Tinydrm.Flush
import Utinydrm.Tinydrm.FlushPayload
import Utinydrm.MipiDbi.Pipe
import Utinydrm.MipiDbi.AddressWindow
import Utinydrm.Event.Handlers
import Utinydrm.Event.Registry
import Utinydrm.Event.TxBufferRuns
import Utinydrm.Event.PipeState
import Utinydrm.Event.Regulator
import Utinydrm.Event.Record
import Utinydrm.Event.PanelSetup
import Utinydrm.MipiDbi.Results
import Utinydrm.Event.DirtyErrors
import Utinydrm.Event.FbResources
import Utinydrm.Lib.Recording
import Utinydrm.Spi.Submissions
import Utinydrm.Event.ClipReads
import Utinydrm.MipiDbi.EmulatedSafety
import Utinydrm.Event.FlushMemory
import Utinydrm.Tinydrm.Xrgb8888
import Utinydrm.MipiDbi.TransferLimits
import Utinydrm.MipiDbi.ChunkProgress
import Utinydrm.Event.Blanking
import Utinydrm.MipiDbi.OddWrites
import Utinydrm.MipiDbi.ReadBack
import Utinydrm.Event.CurrentFb
import Utinydrm.Lib.CString
import Utinydrm.Tinydrm.Hexdump
import Utinydrm.Lib.Raster
import Utinydrm.MipiDbi.WriteFrame
import Utinydrm.Event.PanelFlush
import Utinydrm.Event.PanelMirror
import Utinydrm.Event.FbList
import Utinydrm.Lib.LinkedRing
import Utinydrm.Linux.List
import Utinydrm.Main.Process
import Utinydrm.Spi.MessageList
import Utinydrm.Linux.Regmap
import Utinydrm.Main.Loop
import Utinydrm.Event.Screen
import Utinydrm.Event.ScreenLinks
import Utinydrm.MipiDbi.OptionsAgree
