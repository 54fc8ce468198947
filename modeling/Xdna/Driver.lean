import Xdna.Device.Mmio
import Xdna.SendSemantics

/-!
# The driver

The model of the stock driver in `tests/test_boot.c`, which reaches the device only
through its BARs. The driver keeps its own copies of the tail it writes and of the head it
reads from, and knows where the rings and registers of a channel are. Request ids are
given by the caller. A reply whose size is not the expected one is not copied by the
driver; here the payload is always read, as long as the header says.
-/

namespace Xdna

open ByteMemory

/-- `ChannRes`: offsets in the SRAM and MBOX BARs. -/
structure ChannRes where
  rbStart : UInt32
  rbSize : UInt32
  headReg : UInt32
  tailReg : UInt32
  deriving DecidableEq

/-- `Drv`, without the fields that only the test output uses. -/
structure Drv where
  x2i : ChannRes
  i2x : ChannRes
  intrReg : UInt32
  x2iTail : UInt32 := 0
  i2xHead : UInt32 := 0
  deriving DecidableEq

/-- `rd32`. -/
def rd32 (m : Machine) (bar : Int) (off : UInt32) : UInt32 := (mmioRead m.npu bar off 4).toUInt32

/-- `wr32`. -/
def wr32 (host : Host) (m : Machine) (bar : Int) (off val : UInt32) : Machine :=
  mmioWrite host m bar off val.toUInt64 4

/-- What a pass of the loop in `mbox_recv` finds. -/
inductive Received where
  | empty
  | tombstone
  | frame (f : Frame)

/-- One pass of the loop in `mbox_recv`, with the reading of the frame that ends it. -/
def recvPass (host : Host) (d : Drv) (m : Machine) : Drv × Machine × Received :=
  let tail := rd32 m barMbox d.i2x.tailReg
  if d.i2xHead = tail then (d, m, .empty)
  else
    let head := if d.i2xHead = d.i2x.rbSize then 0 else d.i2xHead
    let peek := UInt32.ofNat (leValue (mmioReadBuf m.npu barSram (d.i2x.rbStart + head) 4))
    if peek = mboxTombstone then
      ({ d with i2xHead := 0 }, wr32 host m barMbox d.i2x.headReg 0, .tombstone)
    else
      let raw := mmioReadBuf m.npu barSram (d.i2x.rbStart + head) msgHeaderSize.toNat
      let hdr := MsgHeader.decode (Memory.ofBytes raw) 0
      let payload := mmioReadBuf m.npu barSram (d.i2x.rbStart + head + msgHeaderSize)
        hdr.totalSize.toNat
      let head' := head + (msgHeaderSize + hdr.totalSize)
      ({ d with i2xHead := head' }, wr32 host m barMbox d.i2x.headReg head', .frame ⟨hdr, payload⟩)

/-- The loop of `mbox_recv`, with the passes its guard allows. -/
def recvLoop (host : Host) : ℕ → Drv → Machine → Drv × Machine × Option Frame
  | 0, d, m => (d, m, none)
  | fuel + 1, d, m =>
    match recvPass host d m with
    | (d', m', .empty) => (d', m', none)
    | (d', m', .tombstone) => recvLoop host fuel d' m'
    | (d', m', .frame f) => (d', m', some f)

/-- `mbox_recv`: acknowledge the interrupt and take one reply. -/
def mboxRecv (host : Host) (d : Drv) (m : Machine) : Drv × Machine × Option Frame :=
  recvLoop host 64 d (wr32 host m barMbox d.intrReg 0)

/-- The header of a request. -/
def requestHeader (id opcode reqSize : UInt32) : MsgHeader where
  totalSize := reqSize
  szVer := (reqSize &&& msgBodySzMask) ||| (msgProtocolVer <<< msgProtoVerShift)
  id := id
  opcode := opcode

/-- `mbox_send_recv` up to the write of the tail; `false` means that the ring is full. -/
def mboxPost (host : Host) (d : Drv) (m : Machine) (id opcode : UInt32) (req : List UInt8) :
    Drv × Machine × Bool :=
  let reqSize := UInt32.ofNat req.length
  let pkgSize := msgHeaderSize + reqSize
  let head := rd32 m barMbox d.x2i.headReg
  let usable := d.x2i.rbSize - 4
  let wraps : Bool := head ≤ d.x2iTail && usable < d.x2iTail + pkgSize
  let m₁ := if wraps then
      mmioWriteBuf host m barSram (d.x2i.rbStart + d.x2iTail) (le32 mboxTombstone)
    else m
  let tail := if wraps then 0 else d.x2iTail
  if tail < head ∧ head ≤ tail + pkgSize then (d, m₁, false)
  else
    let m₂ := mmioWriteBuf host m₁ barSram (d.x2i.rbStart + tail)
      (requestHeader id opcode reqSize).encode
    let m₃ := if reqSize = 0 then m₂
      else mmioWriteBuf host m₂ barSram (d.x2i.rbStart + tail + msgHeaderSize) req
    let d' := { d with x2iTail := tail + pkgSize }
    (d', wr32 host m₃ barMbox d.x2i.tailReg d'.x2iTail, true)

/-- `mbox_send_recv`. -/
def mboxSendRecv (host : Host) (d : Drv) (m : Machine) (id opcode : UInt32) (req : List UInt8) :
    Drv × Machine × Option Frame :=
  let r := mboxPost host d m id opcode req
  if r.2.2 then mboxRecv host r.1 r.2.1 else (r.1, r.2.1, none)

/-- The driver of channel `c` when the channel has been set up with registers `ch`. -/
def Drv.ofChannel (c : ChanIdx) (ch : Channel) : Drv where
  x2i := ⟨ch.x2iBuf, ch.x2iSize, mboxChanBase c.val + mboxX2iHeadOff,
    mboxChanBase c.val + mboxX2iTailOff⟩
  i2x := ⟨ch.i2xBuf, ch.i2xSize, mboxChanBase c.val + mboxI2xHeadOff,
    mboxChanBase c.val + mboxI2xTailOff⟩
  intrReg := mboxChanBase c.val + mboxI2xHeadOff + 4

/-- `drv_get_mgmt_chann_info`: the driver of the management channel, from the info block. -/
def Drv.ofInfo (info : MgmtMboxInfo) : Drv where
  x2i := ⟨info.x2iBuf - apertureBase1, info.x2iBufSz, info.x2iHead - apertureBase2,
    info.x2iTail - apertureBase2⟩
  i2x := ⟨info.i2xBuf - apertureBase1, info.i2xBufSz, info.i2xHead - apertureBase2,
    info.i2xTail - apertureBase2⟩
  intrReg := info.i2xHead - apertureBase2 + 4

/-- The info block tells the driver where the management channel is. -/
theorem Drv.ofInfo_mgmtInfo : Drv.ofInfo mgmtInfo = Drv.ofChannel 0 mgmtChannel := by decide

/-- The info block as the driver reads it. -/
def MgmtMboxInfo.decode (mem : Memory) : MgmtMboxInfo where
  x2iTail := mem.word32 0
  x2iHead := mem.word32 4
  x2iBuf := mem.word32 8
  x2iBufSz := mem.word32 12
  i2xTail := mem.word32 16
  i2xHead := mem.word32 20
  i2xBuf := mem.word32 24
  i2xBufSz := mem.word32 28
  magic := mem.word32 32
  msiId := mem.word32 36
  protMajor := mem.word32 40
  protMinor := mem.word32 44

/-- `drv_get_mgmt_chann_info`; `none` stands for -1. The driver's own copies of tail and head
stay as they are. -/
def getMgmtChannInfo (host : Host) (d : Drv) (m : Machine) : Machine × Option Drv :=
  let addr := rd32 m barSram sramFwAliveOff
  if addr = 0 then (m, none)
  else
    let info := MgmtMboxInfo.decode
      (Memory.ofBytes (mmioReadBuf m.npu barSram (addr - apertureBase1) 64))
    if info.magic ≠ mgmtMboxMagic then (m, none)
    else
      let d' := { Drv.ofInfo info with x2iTail := d.x2iTail, i2xHead := d.i2xHead }
      (wr32 host m barSram sramFwAliveOff 0, some d')

/-- `psp_exec` up to the reading of the response. -/
def pspExec (host : Host) (m : Machine) (cmd arg0 arg1 arg2 : UInt32) : Machine :=
  let arg2 := (arg2 ||| (cmd <<< pspArg2CmdShift)) &&& pspArg2Mask
  let m₁ := wr32 host m barReg regScratch2 cmd
  let m₂ := wr32 host m₁ barReg regScratch3 arg0
  let m₃ := wr32 host m₂ barReg regScratch4 arg1
  let m₄ := wr32 host m₃ barReg regScratch9 arg2
  wr32 host (wr32 host m₄ barReg regPubSecIntr 0) barReg regPubSecIntr pspNotifyVal

/-- `psp_exec`; `false` stands for -1. -/
def pspExecChecked (host : Host) (m : Machine) (cmd arg0 arg1 arg2 : UInt32) : Machine × Bool :=
  if rd32 m barReg regScratch2 &&& pspStatusReady = 0 then (m, false)
  else
    let m₁ := pspExec host m cmd arg0 arg1 arg2
    if rd32 m₁ barReg regScratch2 &&& pspStatusReady = 0 then (m₁, false)
    else (m₁, rd32 m₁ barReg regScratch3 = 0)

/-- `smu_exec` with an `out`; `none` stands for the -1 of a timeout, otherwise the first component
is false for -1. -/
def smuExec (host : Host) (m : Machine) (cmd arg : UInt32) : Machine × Option (Bool × UInt32) :=
  let m₁ := wr32 host m barReg regScratch6 0
  let m₂ := wr32 host m₁ barReg regScratch7 arg
  let m₃ := wr32 host m₂ barReg regScratch5 cmd
  let m₄ := wr32 host (wr32 host m₃ barReg regPubPwrmgmtIr 0) barReg regPubPwrmgmtIr 1
  let resp := rd32 m₄ barReg regScratch6
  if resp = 0 then (m₄, none)
  else (m₄, some (resp = smuResultOk, rd32 m₄ barReg regScratch7))

/-- `smu_exec` returns 0. -/
def smuOk (r : Machine × Option (Bool × UInt32)) : Bool := r.2.any (·.1)

/-- `FW_PADDR` and `FW_SIZE` of the tests. -/
def fwImagePaddr : UInt64 := 0x100010000

/-- The size that the tests give for the firmware image. -/
def fwImageSize : UInt32 := 0x40000

/-- `drv_hw_start`; `none` stands for -1. -/
def hwStart (host : Host) (d : Drv) (m : Machine) : Machine × Option Drv :=
  let off := smuExec host m smuPowerOff 0
  if ¬ smuOk off then (off.1, none)
  else
    let on := smuExec host off.1 smuPowerOn 0
    if ¬ smuOk on then (on.1, none)
    else
      let valid := pspExecChecked host on.1 pspCmdValidate fwImagePaddr.toUInt32
        (fwImagePaddr >>> 32).toUInt32 fwImageSize
      if ¬ valid.2 then (valid.1, none)
      else
        let start := pspExecChecked host valid.1 pspCmdStart pspStartCopyFw 0 0
        if ¬ start.2 then (start.1, none) else getMgmtChannInfo host d start.1

end Xdna
