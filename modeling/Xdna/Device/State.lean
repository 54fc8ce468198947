import Xdna.Registers
import Xdna.General.ByteMemory
import Mathlib.Logic.Function.Basic

/-!
# The state of the device

The types of `src/xdna_internal.h`. The SRAM BAR is a byte memory of which only
the first 256 KiB exist: `Npu.sramCopy` drops what a copy would put behind the
end of the allocation. A `Machine` is a device together with the host calls it
has made, because DMA outcomes are numbered in the order of the calls, and a
trace of everything it did that is visible outside the state.
-/

namespace Xdna

open ByteMemory

/-- `XDNA_MAX_CHANNELS`: the management channel and one channel for each context. -/
abbrev maxChannels : ℕ := 7

/-- An index into `npu->chan`. -/
abbrev ChanIdx := Fin maxChannels

/-- An index into `npu->ctx`. -/
abbrev SlotIdx := Fin hwctxLimit

instance maxChannels_neZero : NeZero maxChannels := ⟨by decide⟩

instance hwctxLimit_neZero : NeZero hwctxLimit := ⟨by decide⟩

/-- The channel of a context slot; channel 0 is the management channel. -/
def slotChan (s : SlotIdx) : ChanIdx := s.succ

/-- `XdnaMsgHeader`. -/
structure MsgHeader where
  totalSize : UInt32
  szVer : UInt32
  id : UInt32
  opcode : UInt32
  deriving DecidableEq

/-- `sizeof(XdnaMsgHeader)`. -/
def msgHeaderSize : UInt32 := 16

/-- The header as it lies in a ring. -/
def MsgHeader.encode (h : MsgHeader) : List UInt8 :=
  le32 h.totalSize ++ le32 h.szVer ++ le32 h.id ++ le32 h.opcode

/-- The header at an offset of a ring. -/
def MsgHeader.decode (mem : Memory) (off : ℕ) : MsgHeader where
  totalSize := mem.word32 off
  szVer := mem.word32 (off + 4)
  id := mem.word32 (off + 8)
  opcode := mem.word32 (off + 12)

/-- `XdnaChannel`: the device's side of a mailbox channel. -/
structure Channel where
  active : Bool := false
  index : ℕ := 0
  x2iHead : UInt32 := 0
  x2iTail : UInt32 := 0
  i2xHead : UInt32 := 0
  i2xTail : UInt32 := 0
  intr : UInt32 := 0
  x2iBuf : UInt32 := 0
  x2iSize : UInt32 := 0
  i2xBuf : UInt32 := 0
  i2xSize : UInt32 := 0
  deriving DecidableEq

/-- `XdnaContext`: a hardware context. -/
structure Context where
  valid : Bool := false
  id : UInt32 := 0
  pasid : UInt16 := 0
  startCol : UInt8 := 0
  numCol : UInt8 := 0
  priority : UInt32 := 0
  chan : ℕ := 0
  heapAddr : UInt64 := 0
  heapSize : UInt64 := 0
  deriving DecidableEq

/-- `XdnaPspState`. -/
inductive PspState where
  | cold
  | validated
  | running
  deriving DecidableEq

/-- `XdnaStats`, without the two fields that only `xdna_npu_get_stats` fills in. -/
structure Stats where
  pspCmds : UInt64 := 0
  smuCmds : UInt64 := 0
  mboxMsgsIn : UInt64 := 0
  mboxMsgsOut : UInt64 := 0
  irqsRaised : UInt64 := 0
  activeContexts : UInt32 := 0
  deriving DecidableEq

/-- The SMU and the PSP share ten scratch registers. -/
instance scratch_neZero : NeZero 10 := ⟨by decide⟩

/-- `struct XdnaNpu`, without the host callbacks. -/
structure Npu where
  scratch : Fin 10 → UInt32
  pwaitmode : UInt32
  secIntr : UInt32
  pwrmgmtIntr : UInt32
  sram : Memory
  chan : ChanIdx → Channel
  pspState : PspState
  powerOn : Bool
  fwAlive : Bool
  fwSuspended : Bool
  fwPaddr : UInt64
  fwSize : UInt32
  npuclk : UInt32
  hclk : UInt32
  dpmLevel : UInt32
  mgmtPasid : UInt16
  rtCfg : Fin 64 → UInt64
  ctx : SlotIdx → Context
  nextCtxId : UInt32
  colUsed : UInt32
  asyncBufAddr : UInt64
  asyncBufSize : UInt32
  asyncRegistered : Bool
  stats : Stats

namespace Npu

/-- The record of channel `c` is replaced. -/
def setChan (npu : Npu) (c : ChanIdx) (ch : Channel) : Npu :=
  { npu with chan := Function.update npu.chan c ch }

/-- The record in slot `s` is replaced. -/
def setCtx (npu : Npu) (s : SlotIdx) (ctx : Context) : Npu :=
  { npu with ctx := Function.update npu.ctx s ctx }

/-- A scratch register is written. -/
def setScratch (npu : Npu) (i : Fin 10) (v : UInt32) : Npu :=
  { npu with scratch := Function.update npu.scratch i v }

/-- `memcpy(npu->sram + off, bytes, len)`, cut off at the end of the buffer. -/
def sramCopy (npu : Npu) (off : ℕ) (bytes : List UInt8) : Npu :=
  { npu with sram := npu.sram.write off (bytes.take (barSramSize - off)) }

/-- `memset(npu->sram + off, 0, len)`. -/
def sramClear (npu : Npu) (off len : ℕ) : Npu :=
  { npu with sram := npu.sram.clear off len }

/-- `xdna_sram_read32`. -/
def sramRead32 (npu : Npu) (off : UInt32) : UInt32 :=
  if barSramSize < (off + 4).toNat then 0 else npu.sram.word32 off.toNat

/-- `xdna_sram_write32`. -/
def sramWrite32 (npu : Npu) (off v : UInt32) : Npu :=
  if barSramSize < (off + 4).toNat then npu else npu.sramCopy off.toNat (le32 v)

end Npu

/-- `xdna_sram_dev_addr`. -/
def sramDevAddr (off : UInt32) : UInt32 := apertureBase1 + off

/-- `xdna_mbox_dev_addr`. -/
def mboxDevAddr (off : UInt32) : UInt32 := apertureBase2 + off

/-- What the device does apart from changing its state. Calls of the host and of the
message handler carry the device state in which they are made. -/
inductive Event where
  /-- The image read of a PSP command. -/
  | dmaRead (paddr : UInt64) (len : UInt32) (ok : Bool)
  /-- One `dma_write` call. -/
  | dmaWrite (addr : UInt64) (len : UInt32) (ok : Bool)
  /-- One `raise_irq` call. -/
  | raiseIrq (vector : ℕ) (npu : Npu)
  /-- `xdna_mbox_process` reads `len` bytes of SRAM on behalf of channel `c`. -/
  | ringRead (c : ChanIdx) (off len : ℕ)
  /-- `xdna_mbox_send` writes `len` bytes of SRAM on behalf of channel `c`. -/
  | ringWrite (c : ChanIdx) (off len : ℕ)
  /-- `xdna_mbox_process` stops at a frame it does not accept. -/
  | reject (c : ChanIdx) (npu : Npu)
  /-- A call of `xdna_mert_handle` with the bytes copied into the payload buffer. -/
  | handle (c : ChanIdx) (hdr : MsgHeader) (payload : List UInt8) (npu : Npu)
  /-- A call of `xdna_mbox_send` that has returned; `sent` means the value 0. -/
  | send (c : ChanIdx) (id opcode : UInt32) (payload : List UInt8) (sent : Bool)
  /-- A PSP command that has completed with response `resp`. -/
  | pspDone (cmd resp : UInt32)

/-- The device, the number of host DMA calls so far, and what it has done. -/
structure Machine where
  npu : Npu
  dmaReads : ℕ
  dmaWrites : ℕ
  trace : List Event

namespace Machine

/-- An event is recorded. -/
def emit (m : Machine) (e : Event) : Machine := { m with trace := m.trace ++ [e] }

/-- The state of the device changes, and nothing is recorded. -/
def modify (m : Machine) (f : Npu → Npu) : Machine := { m with npu := f m.npu }

/-- An event is not part of the state of the device. -/
@[simp] theorem emit_npu (m : Machine) (e : Event) : (m.emit e).npu = m.npu := rfl

/-- The event comes last. -/
@[simp] theorem emit_trace (m : Machine) (e : Event) : (m.emit e).trace = m.trace ++ [e] := rfl

/-- Recording an event makes no DMA write. -/
@[simp] theorem emit_dmaWrites (m : Machine) (e : Event) : (m.emit e).dmaWrites = m.dmaWrites := rfl

/-- Recording an event makes no DMA read. -/
@[simp] theorem emit_dmaReads (m : Machine) (e : Event) : (m.emit e).dmaReads = m.dmaReads := rfl

/-- The state of the device after a change. -/
@[simp] theorem modify_npu (m : Machine) (f : Npu → Npu) : (m.modify f).npu = f m.npu := rfl

/-- A change of the state records nothing. -/
@[simp] theorem modify_trace (m : Machine) (f : Npu → Npu) : (m.modify f).trace = m.trace := rfl

/-- Two changes of the state are one. -/
theorem modify_modify (m : Machine) (f g : Npu → Npu) :
    (m.modify f).modify g = m.modify fun npu => g (f npu) := rfl

/-- A change of the state makes no DMA write. -/
@[simp] theorem modify_dmaWrites (m : Machine) (f : Npu → Npu) :
    (m.modify f).dmaWrites = m.dmaWrites := rfl

/-- A change of the state makes no DMA read. -/
@[simp] theorem modify_dmaReads (m : Machine) (f : Npu → Npu) :
    (m.modify f).dmaReads = m.dmaReads := rfl

end Machine

/-- `XdnaHostOps`. A DMA callback answers its `n`-th call with success or failure; the bytes
it transfers do not matter to the device. A callback that is absent is `none`. -/
structure HostOps where
  dmaRead : Option (ℕ → UInt64 → UInt32 → Bool)
  dmaReadPhys : Option (ℕ → UInt64 → UInt32 → Bool)
  dmaWrite : Option (ℕ → UInt64 → List UInt8 → Bool)
  raiseIrq : Bool

/-- The host callbacks, and the bytes an uninitialised stack buffer happens to contain after
the device has done `n` things. -/
structure Host extends HostOps where
  stack : ℕ → Memory

/-- A host with all callbacks, on which every transfer succeeds. -/
def Host.accepting : Host where
  dmaRead := some fun _ _ _ => true
  dmaReadPhys := none
  dmaWrite := some fun _ _ _ => true
  raiseIrq := true
  stack := fun _ _ => 0

end Xdna
