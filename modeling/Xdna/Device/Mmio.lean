import Xdna.Device.Boot
import Xdna.Device.Process

/-!
# Reset and MMIO

The device body of `src/xdna_device.c`. The SRAM BAR is plain memory; an access
to the other BARs is cut into 4-byte words from its start, whatever its
alignment, and each word is one register access. A run is a sequence of guest
accesses from reset.
-/

namespace Xdna

open ByteMemory

/-- The device after `memset(npu, 0, sizeof(*npu))` and clearing of the SRAM. -/
def zeroNpu : Npu where
  scratch := fun _ => 0
  pwaitmode := 0
  secIntr := 0
  pwrmgmtIntr := 0
  sram := fun _ => 0
  chan := fun _ => {}
  pspState := .cold
  powerOn := false
  fwAlive := false
  fwSuspended := false
  fwPaddr := 0
  fwSize := 0
  npuclk := 0
  hclk := 0
  dpmLevel := 0
  mgmtPasid := 0
  rtCfg := fun _ => 0
  ctx := fun _ => {}
  nextCtxId := 0
  colUsed := 0
  asyncBufAddr := 0
  asyncBufSize := 0
  asyncRegistered := false
  stats := {}

/-- `xdna_npu_reset`. -/
def npuReset : Npu :=
  mboxReset (({ zeroNpu with nextCtxId := 1 } : Npu).setScratch 2 pspStatusReady)

/-- What `xdna_npu_get_stats` fills in. -/
structure StatsReport extends Stats where
  fwAlive : Bool
  powerOn : Bool
  deriving DecidableEq

/-- `xdna_npu_get_stats`. -/
def getStats (npu : Npu) : StatsReport :=
  { npu.stats with fwAlive := npu.fwAlive, powerOn := npu.powerOn }

/-! ## REG BAR -/

/-- `reg_bar_read`. -/
def regBarRead (npu : Npu) (off : UInt32) : UInt32 :=
  if off = regPwaitmode then npu.pwaitmode
  else if off = regPubSecIntr then npu.secIntr
  else if off = regPubPwrmgmtIr then npu.pwrmgmtIntr
  else if off = regScratch2 then npu.scratch 2
  else if off = regScratch3 then npu.scratch 3
  else if off = regScratch4 then npu.scratch 4
  else if off = regScratch5 then npu.scratch 5
  else if off = regScratch6 then npu.scratch 6
  else if off = regScratch7 then npu.scratch 7
  else if off = regScratch9 then npu.scratch 9
  else 0

/-- `reg_bar_write`. -/
def regBarWrite (host : Host) (m : Machine) (off val : UInt32) : Machine :=
  if off = regPwaitmode then m.modify fun npu => { npu with pwaitmode := val }
  else if off = regPubSecIntr then
    let m₁ := m.modify fun npu => { npu with secIntr := val }
    if val = pspNotifyVal then pspKick host m₁ else m₁
  else if off = regPubPwrmgmtIr then
    let m₁ := m.modify fun npu => { npu with pwrmgmtIntr := val }
    if val = 1 then m₁.modify smuKick else m₁
  else if off = regScratch2 then m.modify (·.setScratch 2 val)
  else if off = regScratch3 then m.modify (·.setScratch 3 val)
  else if off = regScratch4 then m.modify (·.setScratch 4 val)
  else if off = regScratch5 then m.modify (·.setScratch 5 val)
  else if off = regScratch6 then m.modify (·.setScratch 6 val)
  else if off = regScratch7 then m.modify (·.setScratch 7 val)
  else if off = regScratch9 then m.modify (·.setScratch 9 val)
  else m

/-! ## Accesses of any width -/

/-- The word of a register access at `off` in the REG or MBOX BAR. -/
def regRead (npu : Npu) (bar : Int) (off : UInt32) : UInt32 :=
  if bar = barReg then regBarRead npu off
  else if bar = barMbox then mboxRegRead npu off
  else 0

/-- A write of one word to a register BAR. -/
def regWrite (host : Host) (bar : Int) (m : Machine) (w : UInt32 × UInt32) : Machine :=
  if bar = barReg then regBarWrite host m w.1 w.2
  else if bar = barMbox then mboxRegWrite host m w.1 w.2
  else m

/-- The number of words a block of `len` bytes is cut into; the last one may be short. -/
def wordCount (len : ℕ) : ℕ := (len + 3) / 4

/-- `xdna_npu_mmio_read_buf`. -/
def mmioReadBuf (npu : Npu) (bar : Int) (off : UInt32) (len : ℕ) : List UInt8 :=
  if bar = barSram then
    if barSramSize < off.toNat + len then List.replicate len 0
    else npu.sram.read off.toNat len
  else (List.range (wordCount len)).flatMap fun i =>
    (le32 (regRead npu bar (off + UInt32.ofNat (4 * i)))).take (len - 4 * i)

/-- The register words of a block write: the offset and the value of each. -/
def writeWords (off : UInt32) (bytes : List UInt8) : List (UInt32 × UInt32) :=
  (List.range (wordCount bytes.length)).map fun i =>
    (off + UInt32.ofNat (4 * i), UInt32.ofNat (leValue ((bytes.drop (4 * i)).take 4)))

/-- `xdna_npu_mmio_write_buf`. -/
def mmioWriteBuf (host : Host) (m : Machine) (bar : Int) (off : UInt32) (bytes : List UInt8) :
    Machine :=
  if bar = barSram then
    if barSramSize < off.toNat + bytes.length then m
    else m.modify (·.sramCopy off.toNat bytes)
  else (writeWords off bytes).foldl (regWrite host bar) m

/-- `xdna_npu_mmio_read`. -/
def mmioRead (npu : Npu) (bar : Int) (off : UInt32) (len : ℕ) : UInt64 :=
  UInt64.ofNat (leValue (mmioReadBuf npu bar off (min len 8)))

/-- `xdna_npu_mmio_write`. -/
def mmioWrite (host : Host) (m : Machine) (bar : Int) (off : UInt32) (val : UInt64) (len : ℕ) :
    Machine :=
  mmioWriteBuf host m bar off ((le64 val).take (min len 8))

/-! ## Runs -/

/-- One access of the guest. Reads return values but have no effect on the device. -/
inductive GuestOp where
  | read (bar : Int) (off : UInt32) (len : ℕ)
  | write (bar : Int) (off : UInt32) (val : UInt64) (len : ℕ)
  | readBuf (bar : Int) (off : UInt32) (len : ℕ)
  | writeBuf (bar : Int) (off : UInt32) (bytes : List UInt8)

/-- The effect of one guest access. -/
def guestStep (host : Host) (m : Machine) : GuestOp → Machine
  | .read .. => m
  | .write bar off val len => mmioWrite host m bar off val len
  | .readBuf .. => m
  | .writeBuf bar off bytes => mmioWriteBuf host m bar off bytes

/-- A device that has just been reset. -/
def initial : Machine := ⟨npuReset, 0, 0, []⟩

/-- The machine after a sequence of guest accesses from reset. -/
def guestRun (host : Host) (ops : List GuestOp) : Machine := ops.foldl (guestStep host) initial

end Xdna
