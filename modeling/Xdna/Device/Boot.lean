import Xdna.Device.Mailbox

/-!
# Firmware boot, PSP and SMU

The functions of `src/xdna_fw.c`, `src/xdna_psp.c` and `src/xdna_smu.c`. A PSP
or SMU command is started by a write to an interrupt register and finds its
arguments in the scratch registers, where it also leaves its result: command and
status share one register, and so do the first argument and the response.
-/

namespace Xdna

open ByteMemory

/-! ## Firmware -/

/-- `XdnaMgmtMboxInfo` without its reserved words. -/
structure MgmtMboxInfo where
  x2iTail : UInt32
  x2iHead : UInt32
  x2iBuf : UInt32
  x2iBufSz : UInt32
  i2xTail : UInt32
  i2xHead : UInt32
  i2xBuf : UInt32
  i2xBufSz : UInt32
  magic : UInt32
  msiId : UInt32
  protMajor : UInt32
  protMinor : UInt32
  deriving DecidableEq

/-- The info block as it lies in the SRAM. -/
def MgmtMboxInfo.encode (i : MgmtMboxInfo) : List UInt8 :=
  le32 i.x2iTail ++ le32 i.x2iHead ++ le32 i.x2iBuf ++ le32 i.x2iBufSz ++ le32 i.i2xTail ++
    le32 i.i2xHead ++ le32 i.i2xBuf ++ le32 i.i2xBufSz ++ le32 i.magic ++ le32 i.msiId ++
    le32 i.protMajor ++ le32 i.protMinor ++ List.replicate 16 0

/-- The management channel as `xdna_fw_boot` sets it up. -/
def mgmtChannel : Channel where
  active := true
  index := mgmtMsixVector
  x2iBuf := sramMgmtX2iOff
  x2iSize := sramMgmtRbSize
  i2xBuf := sramMgmtI2xOff
  i2xSize := sramMgmtRbSize

/-- The `info` of `xdna_fw_boot`. -/
def mgmtInfo : MgmtMboxInfo where
  x2iHead := mboxDevAddr (mboxChanBase 0 + mboxX2iHeadOff)
  x2iTail := mboxDevAddr (mboxChanBase 0 + mboxX2iTailOff)
  x2iBuf := sramDevAddr mgmtChannel.x2iBuf
  x2iBufSz := mgmtChannel.x2iSize
  i2xHead := mboxDevAddr (mboxChanBase 0 + mboxI2xHeadOff)
  i2xTail := mboxDevAddr (mboxChanBase 0 + mboxI2xTailOff)
  i2xBuf := sramDevAddr mgmtChannel.i2xBuf
  i2xBufSz := mgmtChannel.i2xSize
  magic := mgmtMboxMagic
  msiId := UInt32.ofNat mgmtMsixVector
  protMajor := mgmtProtMajor
  protMinor := mgmtProtMinor

/-- `xdna_fw_boot`. -/
def fwBoot (npu : Npu) : Npu :=
  let npu₁ := (mboxChannelReset npu 0).setChan 0 mgmtChannel
  let npu₂ := npu₁.sramClear mgmtChannel.x2iBuf.toNat mgmtChannel.x2iSize.toNat
  let npu₃ := npu₂.sramClear mgmtChannel.i2xBuf.toNat mgmtChannel.i2xSize.toNat
  let npu₄ := npu₃.sramCopy sramMgmtInfoOff.toNat mgmtInfo.encode
  let npu₅ := npu₄.sramWrite32 sramFwAliveOff (sramDevAddr sramMgmtInfoOff)
  { npu₅ with fwAlive := true, fwSuspended := false, pwaitmode := npu₅.pwaitmode ||| 1 }

/-- `xdna_fw_shutdown`. -/
def fwShutdown (npu : Npu) : Npu :=
  let npu₁ := mboxReset { npu with
    ctx := fun s => { npu.ctx s with valid := false }
    colUsed := 0
    stats := { npu.stats with activeContexts := 0 }
    asyncRegistered := false }
  let npu₂ := npu₁.sramWrite32 sramFwAliveOff 0
  { npu₂ with fwAlive := false, pwaitmode := npu₂.pwaitmode &&& ~~~1 }

/-! ## PSP -/

/-- `PSP_PEEK_BYTES`. -/
def pspPeekBytes : UInt32 := 64

/-- `psp_complete`. -/
def pspComplete (npu : Npu) (resp : UInt32) : Npu :=
  (npu.setScratch 3 resp).setScratch 2 pspStatusReady

/-- `psp_fetch_image`: the response, 0 if the image could be read. -/
def pspFetchImage (host : Host) (m : Machine) (paddr : UInt64) (size : UInt32) :
    Machine × UInt32 :=
  let n := if size < pspPeekBytes then size else pspPeekBytes
  if size = 0 then (m, pspErrorBadState)
  else
    let read := if host.dmaReadPhys.isSome then host.dmaReadPhys else host.dmaRead
    match read with
    | none => (m, pspErrorCancel)
    | some read =>
      let ok := read m.dmaReads paddr n
      let m₁ := { m.emit (.dmaRead paddr n ok) with dmaReads := m.dmaReads + 1 }
      (m₁, if ok then 0 else pspErrorCancel)

/-- The image address of a PSP command: `arg1` holds its high half, `arg0` its low half. -/
def pspPaddr (npu : Npu) : UInt64 :=
  ((npu.scratch 4).toUInt64 <<< 32) ||| (npu.scratch 3).toUInt64

/-- The `switch` of `xdna_psp_kick`. -/
def pspCommand (host : Host) (m : Machine) : Machine × UInt32 :=
  let cmd := m.npu.scratch 2
  let paddr := pspPaddr m.npu
  let size := m.npu.scratch 9 &&& pspArg2Mask
  if cmd = pspCmdValidate then
    let r := pspFetchImage host m paddr size
    if r.2 = 0 then
      (r.1.modify fun npu => { npu with fwPaddr := paddr, fwSize := size, pspState := .validated },
        r.2)
    else r
  else if cmd = pspCmdValidateCert then pspFetchImage host m paddr size
  else if cmd = pspCmdStart then
    if m.npu.pspState ≠ .validated then (m, pspErrorBadState)
    else (m.modify fun npu => fwBoot { npu with pspState := .running }, 0)
  else if cmd = pspCmdReleaseTmr then
    (m.modify fun npu => { fwShutdown npu with pspState := .cold }, 0)
  else (m, pspErrorBadState)

/-- `xdna_psp_kick`. -/
def pspKick (host : Host) (m : Machine) : Machine :=
  let m₁ := m.modify fun npu =>
    { npu with stats := { npu.stats with pspCmds := npu.stats.pspCmds + 1 } }
  let r := pspCommand host m₁
  (r.1.modify (pspComplete · r.2)).emit (.pspDone (m.npu.scratch 2) r.2)

/-! ## SMU -/

/-- `SMU_RESULT_FAIL`. -/
def smuResultFail : UInt32 := 2

/-- `smu_complete`. -/
def smuComplete (npu : Npu) (resp out : UInt32) : Npu :=
  (npu.setScratch 7 out).setScratch 6 resp

/-- `xdna_smu_kick`. -/
def smuKick (npu : Npu) : Npu :=
  let cmd := npu.scratch 5
  let arg := npu.scratch 7
  let npu := { npu with stats := { npu.stats with smuCmds := npu.stats.smuCmds + 1 } }
  if cmd = smuPowerOn then smuComplete { npu with powerOn := true } smuResultOk 0
  else if cmd = smuPowerOff then smuComplete { npu with powerOn := false } smuResultOk 0
  else if cmd = smuSetMpnpuclkFreq then smuComplete { npu with npuclk := arg } smuResultOk arg
  else if cmd = smuSetHclkFreq then smuComplete { npu with hclk := arg } smuResultOk arg
  else if cmd = smuSetSoftDpmlevel ∨ cmd = smuSetHardDpmlevel then
    if maxDpmLevel < arg then smuComplete npu smuResultFail 0
    else smuComplete { npu with dpmLevel := arg } smuResultOk arg
  else smuComplete npu smuResultFail 0

end Xdna
