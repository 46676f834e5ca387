import MelonDS.Library.CyclicWindow
import MelonDS.Types
import MelonDS.FIFO
import MelonDS.GPU3D.CommandFIFO
import MelonDS.GPU.VRAMMap
import MelonDS.GPU.VRAMPlacement
import MelonDS.Library.Memory
import MelonDS.Library.MarkedCells
import MelonDS.Library.DedupQueue
import MelonDS.GPU.VRAMTracking
import MelonDS.GPU.VRAMView
import MelonDS.GPU.VRAMDerive
import MelonDS.GPU.VRAMCoherence
import MelonDS.GPU3D.CommandStream
import MelonDS.GPU3D.PackedCommands
import MelonDS.GPU3D.VertexSlots
import MelonDS.GPU2D.RegisterWidths
import MelonDS.Library.StableSort
import MelonDS.GPU3D.RenderOrder
import MelonDS.GPU.VRAMReads
import MelonDS.NDS.SleepLoop
import MelonDS.NDS.Scheduler
import MelonDS.Library.CyclicOrder
import MelonDS.Library.RankedLoop
import MelonDS.GPU3D.Clip
import MelonDS.GPU3D.ClipInside
import MelonDS.ARMJIT.RangeTable
import MelonDS.ARMJIT.Trace
import MelonDS.Library.Slicing
import MelonDS.DMA.Channel
import MelonDS.DMA.Slicing
import MelonDS.Library.ByteRing
import MelonDS.Library.LittleEndian
import MelonDS.Net.MPRecord
import MelonDS.Net.Reader
import MelonDS.Net.LocalMP
import MelonDS.Net.Consistency
import MelonDS.Library.SwapRemove
import MelonDS.ARMJIT.BlockIndex
import MelonDS.ARMJIT.BlockInvariant
import MelonDS.ARMJIT.BlockRun
import MelonDS.ARMJIT.Traced
import MelonDS.Library.Queues
import MelonDS.RingBuffer
import MelonDS.Net.PacketDispatcher
import MelonDS.Net.PacketDelivery
import MelonDS.Library.CivilCalendar
import MelonDS.RTC.Registers
import MelonDS.RTC.Serial
import MelonDS.RTC.Calendar
import MelonDS.RTC.Validity
import MelonDS.AREngine.RunCheat
import MelonDS.AREngine.CodePointer
import MelonDS.AREngine.Structured
import MelonDS.AREngine.StructuredRun
import MelonDS.Library.LocalTo
import MelonDS.NDS.Timers
import MelonDS.NDS.TimerSlicing
import MelonDS.GPU.DisplayCapture
import MelonDS.GPU.CaptureGroups
import MelonDS.Library.Overwrite
import MelonDS.Library.PackedLanes
import MelonDS.Library.DigitRoot
import MelonDS.Savestate.Stream
import MelonDS.Savestate.Transfer
import MelonDS.Savestate.Writer
import MelonDS.Savestate.Reader
import MelonDS.Savestate.RoundTrip
import MelonDS.ARM.Core
import MelonDS.ARM.BlockTransfer
import MelonDS.ARM.Debugger
import MelonDS.ARM.Architecture
import MelonDS.ARM.BankedRegisters
import MelonDS.ARM.Refinement
import MelonDS.ARM.RegisterRun
import MelonDS.Library.Trace
import MelonDS.NDS.SquareRoot
import MelonDS.NDS.Division
import MelonDS.NDS.IPC
import MelonDS.NDS.IPCRun
import MelonDS.Library.PhaseCursor
import MelonDS.DSP.Pipe
import MelonDS.DSP.PipeRun
import MelonDS.NWifi.Mailbox
import MelonDS.NWifi.MailboxRun
import MelonDS.NWifi.SendPacket
import MelonDS.Wifi.AccessPoint
import MelonDS.GPU3D.State
import MelonDS.GPU3D.Polygons
import MelonDS.GPU3D.Commands
import MelonDS.GPU3D.VBlank
import MelonDS.GPU3D.Banks
import MelonDS.GPU3D.BankRun
import MelonDS.GPU3D.BankSwap
import MelonDS.GPU3D.Registers
import MelonDS.GPU3D.SoftRenderer
import MelonDS.GPU3D.FrameSkip
import MelonDS.GPU3D.Savestate
import MelonDS.GPU2D.ColorOp
import MelonDS.GPU2D.Windows
import MelonDS.GPU2D.Composite
import MelonDS.GPU3D.Alike
import MelonDS.GPU3D.AlikeCommands
import MelonDS.GPU3D.SavestateRun
import MelonDS.GPU3D.ClipMatrix
import MelonDS.GPU3D.Charges
import MelonDS.GPU3D.BusyCounters
import MelonDS.GPU3D.BusyRun
import MelonDS.GPU3D.BusyTrace
import MelonDS.SPU.Output
import MelonDS.SPU.Channel
import MelonDS.SPU.SampleFifo
import MelonDS.SPU.Playback
import MelonDS.SPU.Capture
import MelonDS.SPU.CaptureFrame
import MelonDS.SPU.CaptureRun
import MelonDS.Library.BitSet
import MelonDS.ARMJIT.RegisterCache
import MelonDS.ARMJIT.CacheLoads
import MelonDS.ARMJIT.CachePrepare
import MelonDS.ARMJIT.CacheRun
import MelonDS.NDSCart.CartRetail
import MelonDS.NDSCart.ByteEffect
import MelonDS.NDSCart.SoundRelease
import MelonDS.NDSCart.WriteProtection
import MelonDS.NDSCart.Transactions
import MelonDS.NDSCart.SaveNotifications
import MelonDS.NDSCart.RetailSavestate
import MelonDS.NDSCart.RomBus
import MelonDS.NDSCart.RetailNAND
import MelonDS.NDSCart.ReadConfinement
import MelonDS.NDSCart.PageLatch
import MelonDS.NDSCart.Key1
import MelonDS.NDSCart.SecureArea
import MelonDS.NDSCart.ReadOnlyArea
import MelonDS.NDSCart.SavestateClosure
import MelonDS.NDSCart.Slot
import MelonDS.NDSCart.RomTransfer
import MelonDS.NDSCart.RomConservation
import MelonDS.NDSCart.SaveEvents
import MelonDS.NDSCart.ChipSelect
import MelonDS.Library.BitSerial
import MelonDS.GBACart.EEPROM
import MelonDS.GBACart.Flash
import MelonDS.GBACart.EEPROMSession
import MelonDS.GBACart.EEPROMPackets
import MelonDS.Library.CounterMode
import MelonDS.DSi.AES
import MelonDS.DSi.AESBlocks
import MelonDS.DSi.AESProgress
import MelonDS.DSi.AESStream
import MelonDS.DSi.AESRoundTrip
import MelonDS.Vulkan.Native2DMemory
import MelonDS.Vulkan.ImmutableViews
import MelonDS.Library.SignedRange
import MelonDS.ARM.Multiply
import MelonDS.ARM.MultiplyExact
import MelonDS.ARM.DataProcessing
import MelonDS.ARM.DataProcessingExact
import MelonDS.ARM.LoadStore
import MelonDS.ARM.DataAborts
import MelonDS.ARM.BlockTransfers
import MelonDS.ARM.BlockRoundTrip
import MelonDS.ARM.ExceptionReturn
import MelonDS.ARDatabase.DatabaseFile
import MelonDS.ARDatabase.ReadBounds
import MelonDS.ARDatabase.RoundTrip
import MelonDS.DSi.NDMA
import MelonDS.DSi.NDMACount
import MelonDS.DSi.I2C
import MelonDS.DSi.I2CRun
import MelonDS.DSP.PData
import MelonDS.DSP.PDataRun
import MelonDS.Library.FilledBuffer
import MelonDS.Library.Feistel
import MelonDS.Library.FileReader
import MelonDS.Library.HexText
import MelonDS.GDB.Memory
import MelonDS.GDB.MemoryAccess
import MelonDS.GDB.MemoryCommands
import MelonDS.GDB.Framing
import MelonDS.GDB.Stream
import MelonDS.GDB.Replies
import MelonDS.Library.AlignedWords
import MelonDS.NDSCart.DLDI
import MelonDS.NDSCart.DLDIPatch
import MelonDS.DSi.NAND
import MelonDS.DSi.NANDSectors
import MelonDS.NDSCart.ROMList
import MelonDS.NonStupidBitfield.Ranges
import MelonDS.GPU3D.PolygonRows
import MelonDS.NonStupidBitfield.Iteration
