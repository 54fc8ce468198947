import Mathlib.Data.Nat.Notation

/-!
# Hardware interface constants

The register offsets, SRAM layout, protocol constants and message codes of
`include/xdna/xdna_regs.h` that the emulator core uses. Offsets are relative to
the BAR they belong to. The layout of the ring buffers and of the mailbox
registers is the emulator's own choice, which the firmware announces to the
driver.
-/

namespace Xdna

/-! ## Apertures and BARs -/

/-- `MPNPU_APERTURE0_BASE`, the registers of PSP and SMU. -/
def apertureBase0 : UInt32 := 0x3000000
/-- `MPNPU_APERTURE1_BASE`, the SRAM. -/
def apertureBase1 : UInt32 := 0x3080000
/-- `MPNPU_APERTURE2_BASE`, the mailbox registers. -/
def apertureBase2 : UInt32 := 0x30C0000

/-- `XDNA_BAR_REG`. -/
def barReg : Int := 0
/-- `XDNA_BAR_SRAM`. -/
def barSram : Int := 2
/-- `XDNA_BAR_MBOX`. -/
def barMbox : Int := 4

/-- `XDNA_BAR_SRAM_SIZE`: 256 KiB. -/
def barSramSize : ℕ := 0x40000

/-! ## Registers of the REG BAR -/

/-- `REG_OFF`. -/
def regOff (addr : UInt32) : UInt32 := addr - apertureBase0

/-- `XDNA_REG_PWAITMODE`. -/
def regPwaitmode : UInt32 := regOff 0x3010034
/-- `XDNA_REG_PUB_SEC_INTR`: the notify value starts a command of the PSP. -/
def regPubSecIntr : UInt32 := regOff 0x3010090
/-- `XDNA_REG_PUB_PWRMGMT_IR`: a 1 starts a command of the SMU. -/
def regPubPwrmgmtIr : UInt32 := regOff 0x3010094
/-- `XDNA_REG_SCRATCH2`: command and status of the PSP. -/
def regScratch2 : UInt32 := regOff 0x30100A0
/-- `XDNA_REG_SCRATCH3`: first argument and response of the PSP. -/
def regScratch3 : UInt32 := regOff 0x30100A4
/-- `XDNA_REG_SCRATCH4`: second argument of the PSP. -/
def regScratch4 : UInt32 := regOff 0x30100A8
/-- `XDNA_REG_SCRATCH5`: command of the SMU. -/
def regScratch5 : UInt32 := regOff 0x30100AC
/-- `XDNA_REG_SCRATCH6`: response of the SMU. -/
def regScratch6 : UInt32 := regOff 0x30100B0
/-- `XDNA_REG_SCRATCH7`: argument and result of the SMU. -/
def regScratch7 : UInt32 := regOff 0x30100B4
/-- `XDNA_REG_SCRATCH9`: third argument of the PSP. -/
def regScratch9 : UInt32 := regOff 0x30100BC

/-! ## PSP and SMU protocols -/

/-- `PSP_STATUS_READY`. -/
def pspStatusReady : UInt32 := 0x80000000
/-- `PSP_CMD_VALIDATE`. -/
def pspCmdValidate : UInt32 := 1
/-- `PSP_CMD_START`. -/
def pspCmdStart : UInt32 := 2
/-- `PSP_CMD_RELEASE_TMR`. -/
def pspCmdReleaseTmr : UInt32 := 3
/-- `PSP_CMD_VALIDATE_CERT`. -/
def pspCmdValidateCert : UInt32 := 4
/-- `PSP_START_COPY_FW`. -/
def pspStartCopyFw : UInt32 := 1
/-- `PSP_ERROR_CANCEL`. -/
def pspErrorCancel : UInt32 := 0xFFFF0002
/-- `PSP_ERROR_BAD_STATE`. -/
def pspErrorBadState : UInt32 := 0xFFFF0007
/-- `PSP_ARG2_MASK`. -/
def pspArg2Mask : UInt32 := 0x00FFFFFF
/-- `PSP_NOTIFY_VAL`. -/
def pspNotifyVal : UInt32 := 1
/-- `PSP_ARG2_CMD_SHIFT`. -/
def pspArg2CmdShift : UInt32 := 24

/-- `SMU_RESULT_OK`. -/
def smuResultOk : UInt32 := 1
/-- `AIE_SMU_POWER_ON`. -/
def smuPowerOn : UInt32 := 3
/-- `AIE_SMU_POWER_OFF`. -/
def smuPowerOff : UInt32 := 4
/-- `AIE_SMU_SET_MPNPUCLK_FREQ`. -/
def smuSetMpnpuclkFreq : UInt32 := 5
/-- `AIE_SMU_SET_HCLK_FREQ`. -/
def smuSetHclkFreq : UInt32 := 6
/-- `AIE_SMU_SET_SOFT_DPMLEVEL`. -/
def smuSetSoftDpmlevel : UInt32 := 7
/-- `AIE_SMU_SET_HARD_DPMLEVEL`. -/
def smuSetHardDpmlevel : UInt32 := 8
/-- `XDNA_NPU1_MAX_DPM_LEVEL`. -/
def maxDpmLevel : UInt32 := 7

/-! ## SRAM layout -/

/-- `SRAM_OFF`. -/
def sramOff (addr : UInt32) : UInt32 := addr - apertureBase1

/-- `XDNA_SRAM_MBOX_CHANN_OFF`. -/
def sramMboxChannOff : UInt32 := sramOff 0x30A0000
/-- `XDNA_SRAM_FW_ALIVE_OFF`: the liveness word. -/
def sramFwAliveOff : UInt32 := sramOff 0x30BF000
/-- `XDNA_SRAM_MGMT_INFO_OFF`: the block that describes the management channel. -/
def sramMgmtInfoOff : UInt32 := sramMboxChannOff
/-- `XDNA_SRAM_MGMT_X2I_OFF`. -/
def sramMgmtX2iOff : UInt32 := 0x21000
/-- `XDNA_SRAM_MGMT_I2X_OFF`. -/
def sramMgmtI2xOff : UInt32 := 0x22000
/-- `XDNA_SRAM_MGMT_RB_SIZE`. -/
def sramMgmtRbSize : UInt32 := 0x1000
/-- `XDNA_SRAM_CTX_RB_BASE`. -/
def sramCtxRbBase : UInt32 := 0x24000
/-- `XDNA_SRAM_CTX_RB_SIZE`. -/
def sramCtxRbSize : UInt32 := 0x2000
/-- `XDNA_SRAM_CTX_RB_STRIDE`: the two rings of a context. -/
def sramCtxRbStride : UInt32 := 2 * sramCtxRbSize

/-! ## Mailbox registers and frames -/

/-- `XDNA_MBOX_CHAN_STRIDE`. -/
def mboxChanStride : UInt32 := 0x20
/-- `XDNA_MBOX_X2I_HEAD_OFF`. -/
def mboxX2iHeadOff : UInt32 := 0x00
/-- `XDNA_MBOX_X2I_TAIL_OFF`. -/
def mboxX2iTailOff : UInt32 := 0x04
/-- `XDNA_MBOX_I2X_HEAD_OFF`. -/
def mboxI2xHeadOff : UInt32 := 0x08
/-- The interrupt register follows the `i2x` head register, as the driver assumes. -/
def mboxIntrOff : UInt32 := 0x0C
/-- `XDNA_MBOX_I2X_TAIL_OFF`. -/
def mboxI2xTailOff : UInt32 := 0x10

/-- `XDNA_MBOX_CHAN_BASE`. -/
def mboxChanBase (idx : ℕ) : UInt32 := UInt32.ofNat idx * mboxChanStride

/-- `XDNA_MBOX_TOMBSTONE`: the reader goes back to the start of the ring. -/
def mboxTombstone : UInt32 := 0xDEADFACE
/-- `XDNA_MSG_PROTOCOL_VER`. -/
def msgProtocolVer : UInt32 := 1
/-- `XDNA_MSG_BODY_SZ_MASK`. -/
def msgBodySzMask : UInt32 := 0x7FF
/-- `XDNA_MSG_PROTO_VER_SHIFT`. -/
def msgProtoVerShift : UInt32 := 16
/-- `XDNA_MGMT_MBOX_MAGIC`. -/
def mgmtMboxMagic : UInt32 := 0x55504E5F
/-- `XDNA_MGMT_MSIX_VECTOR`. -/
def mgmtMsixVector : ℕ := 0

/-! ## Firmware, contexts and array topology -/

/-- `XDNA_MGMT_PROT_MAJOR`. -/
def mgmtProtMajor : UInt32 := 5
/-- `XDNA_MGMT_PROT_MINOR`. -/
def mgmtProtMinor : UInt32 := 7
/-- `XDNA_FW_VER_MAJOR`. -/
def fwVerMajor : UInt32 := 5
/-- `XDNA_FW_VER_MINOR`. -/
def fwVerMinor : UInt32 := 7
/-- `XDNA_FW_VER_SUB`. -/
def fwVerSub : UInt32 := 0
/-- `XDNA_FW_VER_BUILD`. -/
def fwVerBuild : UInt32 := 0

/-- `XDNA_NPU1_HWCTX_LIMIT`. -/
abbrev hwctxLimit : ℕ := 6

/-- `XDNA_AIE_COLS`. -/
def aieCols : ℕ := 5
/-- `XDNA_AIE_CORE_ROWS`. -/
def aieCoreRows : ℕ := 4
/-- `XDNA_AIE_MEM_ROWS`. -/
def aieMemRows : ℕ := 1
/-- `XDNA_AIE_SHIM_ROWS`. -/
def aieShimRows : ℕ := 1
/-- `XDNA_AIE_ROWS`. -/
def aieRows : ℕ := aieShimRows + aieMemRows + aieCoreRows
/-- `XDNA_AIE_SHIM_ROW_START`. -/
def aieShimRowStart : ℕ := 0
/-- `XDNA_AIE_MEM_ROW_START`. -/
def aieMemRowStart : ℕ := 1
/-- `XDNA_AIE_CORE_ROW_START`. -/
def aieCoreRowStart : ℕ := 2
/-- `XDNA_AIE_VERSION_MAJOR`. -/
def aieVersionMajor : ℕ := 2
/-- `XDNA_AIE_VERSION_MINOR`. -/
def aieVersionMinor : ℕ := 0

/-! ## Message codes -/

/-- The opcodes of `enum xdna_msg_opcode`. -/
inductive MsgOpcode where
  | createContext | destroyContext | getTelemetry | syncBo | executeBufferCf | queryColStatus
  | queryAieTileInfo | queryAieVersion | execDpu | configCu | chainExecBufferCf | chainExecDpu
  | configDebugBo | chainExecNpu | suspend | resume | assignMgmtPasid | invokeSelfTest
  | mapHostBuffer | getFirmwareVersion | setRuntimeConfig | getRuntimeConfig
  | registerAsyncEventMsg | updateProperty | getAppHealth | addHostBuffer | getDevRevision
  | getProtocolVersion
  deriving DecidableEq, Repr

/-- The number an opcode has in a message header. -/
def MsgOpcode.code : MsgOpcode → UInt32
  | createContext => 0x2
  | destroyContext => 0x3
  | getTelemetry => 0x4
  | syncBo => 0x7
  | executeBufferCf => 0xC
  | queryColStatus => 0xD
  | queryAieTileInfo => 0xE
  | queryAieVersion => 0xF
  | execDpu => 0x10
  | configCu => 0x11
  | chainExecBufferCf => 0x12
  | chainExecDpu => 0x13
  | configDebugBo => 0x14
  | chainExecNpu => 0x18
  | suspend => 0x101
  | resume => 0x102
  | assignMgmtPasid => 0x103
  | invokeSelfTest => 0x104
  | mapHostBuffer => 0x106
  | getFirmwareVersion => 0x108
  | setRuntimeConfig => 0x10A
  | getRuntimeConfig => 0x10B
  | registerAsyncEventMsg => 0x10C
  | updateProperty => 0x113
  | getAppHealth => 0x114
  | addHostBuffer => 0x115
  | getDevRevision => 0x117
  | getProtocolVersion => 0x301

/-- Every opcode, in the order of the enumeration. -/
def MsgOpcode.all : List MsgOpcode :=
  [createContext, destroyContext, getTelemetry, syncBo, executeBufferCf, queryColStatus,
    queryAieTileInfo, queryAieVersion, execDpu, configCu, chainExecBufferCf, chainExecDpu,
    configDebugBo, chainExecNpu, suspend, resume, assignMgmtPasid, invokeSelfTest, mapHostBuffer,
    getFirmwareVersion, setRuntimeConfig, getRuntimeConfig, registerAsyncEventMsg, updateProperty,
    getAppHealth, addHostBuffer, getDevRevision, getProtocolVersion]

/-- The opcode with a given number, if there is one: the case analysis of a `switch`. -/
def MsgOpcode.ofCode? (v : UInt32) : Option MsgOpcode :=
  MsgOpcode.all.find? fun o => o.code = v

/-- The `switch` selects exactly the opcode with the number in the header. -/
theorem MsgOpcode.ofCode?_eq_some {v : UInt32} {o : MsgOpcode} :
    ofCode? v = some o ↔ o.code = v := by
  constructor
  · intro h
    simpa using List.find?_some h
  · rintro rfl
    cases o <;> decide

/-- The status codes of `enum xdna_msg_status` that the firmware answers with. -/
inductive MsgStatus where
  | success | aieDmaError | mgmtErtNoavail | mgmtErtInvalidParam | invalidInputBuffer
  | invalidCommand | invalidParam | invalidOperation
  deriving DecidableEq, Repr

/-- The number of a status in a reply. -/
def MsgStatus.code : MsgStatus → UInt32
  | success => 0x0
  | aieDmaError => 0x1000009
  | mgmtErtNoavail => 0x2000003
  | mgmtErtInvalidParam => 0x2000004
  | invalidInputBuffer => 0x4000001
  | invalidCommand => 0x4000002
  | invalidParam => 0x4000003
  | invalidOperation => 0x4000006

end Xdna
