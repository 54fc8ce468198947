import Xdna.General.ByteMemory
import Xdna.General.RingLog
import Xdna.General.GuardedRun
import Xdna.General.SlotTable
import Xdna.General.Interleaving
import Xdna.General.RingWalk
import Xdna.General.EventSourcing
import Xdna.General.BlockLog
import Xdna.General.Ledger
import Xdna.Registers
import Xdna.Device.State
import Xdna.Device.Mailbox
import Xdna.Device.Mert
import Xdna.Device.Process
import Xdna.Device.Boot
import Xdna.Device.Mmio
import Xdna.Trace
import Xdna.SendSemantics
import Xdna.MertSemantics
import Xdna.ReplyShape
import Xdna.BootSemantics
import Xdna.Steps
import Xdna.Consistency
import Xdna.Runs
import Xdna.Lifetime
import Xdna.Parser
import Xdna.ReplyBounds
import Xdna.Driver
import Xdna.DriverSemantics
import Xdna.ReplyRing
import Xdna.Management
import Xdna.Exchange
import Xdna.Start
import Xdna.RoundTrip
import Xdna.CleanBoot
import Xdna.ContextMap
import Xdna.ContextRuns
import Xdna.ColumnDump
import Xdna.StackBytes
import Xdna.Rejection
import Xdna.FreshContext
import Xdna.PspHistory
import Xdna.SharedScratch
import Xdna.ContextIds
import Xdna.Advertised
import Xdna.RequestLoop
import Xdna.Published
import Xdna.Batch
import Xdna.Rules
import Xdna.Overrun
import Xdna.Answering
import Xdna.Partitions
import Xdna.Renaming
import Xdna.Reload
import Xdna.Books
import Xdna.SmuHistory
import Xdna.Statistics
import Xdna.Conversation
import Xdna.SramMemory
import Xdna.HwStart
import Xdna.Restart
import Xdna.Qemu
import Xdna.QemuRuns
import Xdna.Wakeup
import Xdna.Transfers
import Xdna.SmuErasure
import Xdna.General.PackedLayout
import Xdna.Messages
import Xdna.Service
import Xdna.Client
